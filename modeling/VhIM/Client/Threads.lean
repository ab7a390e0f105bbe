import VhIM.Client.Commands
import VhIM.Lib.Runs

/-! # The client's threads

The input thread and the threads that `client_connect` creates. Each access of
`is_connected`, each `pthread_create` and `pthread_join`, and each call of
`client_ch_start`, `client_ch_send` and `client_ch_destroy` is a step, and so is
the return of `client_ch_listen`. -/
namespace VhIM.Client
open VhIM.Lib.Runs VhIM.Utility

/-! ## The calls -/

inductive Call where
  /-- `pthread_create`, of a new connection's thread. -/
  | create
  /-- `client_ch_start`; `ok` when it returns 0. -/
  | start (host : List UInt8) (port : Int32) (ok : Bool)
  | send (r : Request)
  | destroy
  deriving DecidableEq

/-! The calls made so far, the latest first. -/

/-- The current connection's start has returned 0 and it has not been destroyed. -/
def sessionUp : List Call → Bool
  | .start _ _ ok :: _ => ok
  | .send _ :: calls => sessionUp calls
  | _ => false

/-- How many sessions were opened. They are numbered in order. -/
def opened : List Call → Nat
  | .start _ _ ok :: calls => if ok then opened calls + 1 else opened calls
  | _ :: calls => opened calls
  | [] => 0

/-- The session whose socket and context `sockfd` and `ctx` hold. -/
def heldSession : List Call → Option Nat
  | .start _ _ ok :: calls => if ok then some (opened calls) else none
  | _ :: calls => heldSession calls
  | [] => none

/-- How often `client_ch_destroy` was called for session `k`. -/
def releases (k : Nat) : List Call → Nat
  | .destroy :: calls => releases k calls + if heldSession calls = some k then 1 else 0
  | _ :: calls => releases k calls
  | [] => 0

/-! ## The threads -/

/-- Where the input thread stands. `client_disconnect` is also the beginning
of `client_connect`, which then goes on. -/
inductive InputPc where
  | reading
  /-- Before the question whether a text can be broadcast. -/
  | asking (msg : List UInt8)
  /-- Before `client_ch_send`. -/
  | sending (r : Request)
  /-- `client_disconnect`: before the question, the farewell, the destruction,
  the write of `is_connected` and the join. -/
  | testing (connect : Bool)
  | farewell (connect : Bool)
  | destroying (connect : Bool)
  | clearing (connect : Bool)
  | joining (connect : Bool)
  /-- `client_connect`: before the write and the creation. -/
  | setting
  | creating
  /-- The process has left. -/
  | exited
  deriving DecidableEq

def InputPc.next (connect : Bool) : InputPc := if connect then .setting else .reading

/-- Where a thread in `threaded_connect` stands, with the session it opened. -/
inductive ThreadPc where
  /-- Before `client_ch_start`. -/
  | starting
  /-- Before the write of `is_connected`, after a start that failed or not. -/
  | refused
  | started (k : Nat)
  /-- In `client_ch_listen`, and after it. -/
  | listening (k : Nat)
  | left (k : Nat)
  /-- Before the last write of `is_connected`, and after it. -/
  | destroyed (k : Nat)
  | ended (k : Option Nat)
  deriving DecidableEq

structure ClientState where
  input : InputPc
  /-- The threads created, the newest, `input_thread`, first. -/
  threads : List ThreadPc
  isConnected : Bool
  argHost : List UInt8
  argPort : Int32
  calls : List Call
  deriving DecidableEq

namespace ClientState

def start (argHost : List UInt8) (argPort : Int32) : ClientState :=
  ⟨.reading, [], false, argHost, argPort, []⟩

/-- `PORT`. -/
def defaultPort : Int32 := 55099

def act (s : ClientState) : Action → ClientState
  | .request r => { s with input := .sending r }
  | .say msg => { s with input := .asking msg }
  | .connect host port =>
    { s with
      argHost := match host with
        | some host => host
        | none => if s.argHost ≠ [] then s.argHost else text "vhelium.com"
      argPort := if port = 0 then defaultPort else port
      input := .testing true }
  | .disconnect => { s with input := .testing false }
  | .nothing => s

/-- The next step of the input thread on the way to the next line; `ok` when
`pthread_create` succeeds. -/
def inputStep (s : ClientState) (ok : Bool) : Option ClientState :=
  match s.input with
  | .reading | .exited => none
  | .asking msg =>
    some { s with input := if s.isConnected then .sending (.broadcast msg) else .reading }
  | .sending r => some { s with calls := .send r :: s.calls, input := .reading }
  | .testing connect =>
    some { s with input := if s.isConnected then .farewell connect else .next connect }
  | .farewell connect =>
    some { s with calls := .send .disconnect :: s.calls, input := .destroying connect }
  | .destroying connect => some { s with calls := .destroy :: s.calls, input := .clearing connect }
  | .clearing connect => some { s with isConnected := false, input := .joining connect }
  | .joining connect =>
    match s.threads with
    | .ended _ :: _ => some { s with input := .next connect }
    | _ => none
  | .setting => some { s with isConnected := true, input := .creating }
  | .creating =>
    if ok then
      some { s with
        calls := .create :: s.calls, threads := .starting :: s.threads, input := .reading }
    else some { s with input := .exited }

/-- The next step of a thread; `ok` when `client_ch_start` returns 0. -/
def threadStep (s : ClientState) (i : Nat) (ok : Bool) : Option ClientState :=
  match s.threads[i]? with
  | some .starting =>
    some { s with
      threads := s.threads.set i (if ok then .started (opened s.calls) else .refused)
      calls := .start s.argHost s.argPort ok :: s.calls }
  | some .refused =>
    some { s with threads := s.threads.set i (.ended none), isConnected := false }
  | some (.started k) =>
    some { s with threads := s.threads.set i (.listening k), isConnected := true }
  | some (.listening k) => some { s with threads := s.threads.set i (.left k) }
  | some (.left k) =>
    some { s with threads := s.threads.set i (.destroyed k), calls := .destroy :: s.calls }
  | some (.destroyed k) =>
    some { s with threads := s.threads.set i (.ended (some k)), isConnected := false }
  | some (.ended _) | none => none

end ClientState

inductive Move where
  /-- The input thread reads what is typed. -/
  | typed (line : List UInt8)
  | input (ok : Bool)
  | thread (i : Nat) (ok : Bool)
  deriving DecidableEq

/-- One step of the client. -/
inductive ClientStep (portDefault : Int32) : Move → ClientState → ClientState → Prop
  | typed {s : ClientState} {line : List UInt8} {a : Action} : s.input = .reading →
      processInput portDefault (readLine 1024 line) = some a →
      ClientStep portDefault (.typed line) s (s.act a)
  | input {s t : ClientState} {ok : Bool} : s.inputStep ok = some t →
      ClientStep portDefault (.input ok) s t
  | thread {s t : ClientState} {i : Nat} {ok : Bool} : s.threadStep i ok = some t →
      ClientStep portDefault (.thread i ok) s t

end VhIM.Client
