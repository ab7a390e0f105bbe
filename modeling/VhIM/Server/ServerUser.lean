import Mathlib

/-! # Logged-in users

`server_user.c`: a user with the list of its connections, newest first, and
their count. -/
namespace VhIM.Server

/-- An `SSL *`, with the descriptor it was given by `SSL_set_fd`. -/
structure Ssl where
  ptr : Nat
  fd : Nat
  deriving DecidableEq

/-- `struct server_user_info`: what a report says about a user. -/
structure ServerUserInfo where
  id : Int32
  username : List UInt8
  deriving DecidableEq

structure ServerUser where
  id : Int32
  conLen : Nat
  connections : List Ssl
  username : List UInt8
  pLevel : UInt8
  deriving DecidableEq

namespace ServerUser

def create (id : Int32) (ssl : Ssl) (username : List UInt8) (pLevel : UInt8) : ServerUser :=
  ⟨id, 1, [ssl], username, pLevel⟩

def addConnection (su : ServerUser) (ssl : Ssl) : ServerUser :=
  { su with connections := ssl :: su.connections, conLen := su.conLen + 1 }

/-- The walk of `server_user_remove_connection`: unlink the first node with
`ssl`, if there is one. -/
def unlink (ssl : Ssl) : List Ssl → Option (List Ssl)
  | [] => none
  | cur :: next => if cur ≠ ssl then (unlink ssl next).map (cur :: ·) else some next

def removeConnection (su : ServerUser) (ssl : Ssl) : ServerUser :=
  match unlink ssl su.connections with
  | some connections => { su with connections := connections, conLen := su.conLen - 1 }
  | none => su

theorem unlink_eq (ssl : Ssl) (l : List Ssl) :
    unlink ssl l = if ssl ∈ l then some (l.erase ssl) else none := by
  induction l with
  | nil => rfl
  | cons cur next ih =>
    simp only [unlink]
    by_cases hcur : cur = ssl
    · simp [hcur]
    · rw [if_pos hcur, ih, List.erase_cons_tail (by simpa using hcur)]
      by_cases hmem : ssl ∈ next <;> simp [hmem, Ne.symm hcur]

@[simp] theorem removeConnection_connections (su : ServerUser) (ssl : Ssl) :
    (su.removeConnection ssl).connections = su.connections.erase ssl := by
  simp only [removeConnection, unlink_eq]
  split
  · next h =>
    split at h
    · cases h; rfl
    · cases h
  · next h =>
    split at h
    · cases h
    · next hmem => rw [List.erase_of_not_mem hmem]

def Counted (su : ServerUser) : Prop := su.conLen = su.connections.length

theorem create_counted (id : Int32) (ssl : Ssl) (username : List UInt8) (pLevel : UInt8) :
    (create id ssl username pLevel).Counted := rfl

theorem addConnection_counted {su : ServerUser} (h : su.Counted) (ssl : Ssl) :
    (su.addConnection ssl).Counted := congrArg (· + 1) h

theorem removeConnection_counted {su : ServerUser} (h : su.Counted) (ssl : Ssl) :
    (su.removeConnection ssl).Counted := by
  rw [Counted, removeConnection_connections]
  simp only [removeConnection, unlink_eq]
  split
  · next hs =>
    split at hs
    · next hmem => rw [List.length_erase_of_mem hmem, ← h]
    · cases hs
  · next hs =>
    split at hs
    · cases hs
    · next hmem => rw [List.erase_of_not_mem hmem, ← h]

@[simp] theorem addConnection_id (su : ServerUser) (ssl : Ssl) :
    (su.addConnection ssl).id = su.id := rfl

@[simp] theorem removeConnection_id (su : ServerUser) (ssl : Ssl) :
    (su.removeConnection ssl).id = su.id := by
  simp only [removeConnection]; split <;> rfl

@[simp] theorem removeConnection_username (su : ServerUser) (ssl : Ssl) :
    (su.removeConnection ssl).username = su.username := by
  simp only [removeConnection]; split <;> rfl

@[simp] theorem removeConnection_pLevel (su : ServerUser) (ssl : Ssl) :
    (su.removeConnection ssl).pLevel = su.pLevel := by
  simp only [removeConnection]; split <;> rfl

end ServerUser
end VhIM.Server
