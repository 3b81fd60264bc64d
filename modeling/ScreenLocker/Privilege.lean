import ScreenLocker.Op

/-! Giving up elevated privileges for good. The group goes first: once the user is changed, the group cannot be. -/

namespace ScreenLocker

/-- Real and effective ids of a process. -/
structure ProcessIds where
  uid : Nat
  euid : Nat
  gid : Nat
  egid : Nat
deriving DecidableEq, Repr

def ProcessIds.isElevated (p : ProcessIds) : Bool := p.uid ≠ p.euid || p.gid ≠ p.egid

/-- A kernel that is asked about the ids of the process and to change them. A refusal is an error number. -/
class IdentityKernel (κ : Type) where
  ids : κ → ProcessIds
  /-- Sets the real, effective and saved group. -/
  setAllGroups (gid : Nat) : Op κ (Except Nat Unit)
  /-- Sets the real, effective and saved user. -/
  setAllUsers (uid : Nat) : Op κ (Except Nat Unit)
  setEffectiveUser (uid : Nat) : Op κ (Except Nat Unit)
  setEffectiveGroup (gid : Nat) : Op κ (Except Nat Unit)

namespace Privilege

variable {κ : Type} [IdentityKernel κ]

/-- Checks that the process runs as the real ids that it had earlier, and that the kernel refuses to switch back to the
effective ones. -/
def verifyCannotRegain (earlier : ProcessIds) : Try κ Unit := do
  let now := IdentityKernel.ids (← get)
  if now.euid ≠ earlier.uid ∨ now.egid ≠ earlier.gid then
    throw (.privilege
      ("Privilege drop incomplete (euid=" ++ toString now.euid ++ ", egid=" ++ toString now.egid ++ ")"))
  if earlier.euid ≠ earlier.uid then
    if (← (IdentityKernel.setEffectiveUser earlier.euid : Op κ _)).isOk then
      throw (.privilege
        ("Able to regain effective UID " ++ toString earlier.euid ++ " after dropping privileges"))
  if earlier.egid ≠ earlier.gid then
    if (← (IdentityKernel.setEffectiveGroup earlier.egid : Op κ _)).isOk then
      throw (.privilege
        ("Able to regain effective GID " ++ toString earlier.egid ++ " after dropping privileges"))

/-- Makes the effective ids the real ones and checks that this cannot be undone. A process without elevated
privileges is left alone. -/
def drop : Try κ Unit := do
  let ids := IdentityKernel.ids (← get)
  if !ids.isElevated then
    logDebug .privileges
      ("Running without elevated privileges (uid=" ++ toString ids.uid ++ ", gid=" ++ toString ids.gid ++ ")")
  else
    if let .error errno ← (IdentityKernel.setAllGroups ids.gid : Op κ _) then
      throw (.privilege ("Failed to setresgid(" ++ toString ids.gid ++ "): " ++ (Fault.os errno).message))
    if let .error errno ← (IdentityKernel.setAllUsers ids.uid : Op κ _) then
      throw (.privilege ("Failed to setresuid(" ++ toString ids.uid ++ "): " ++ (Fault.os errno).message))
    verifyCannotRegain ids
    logInfo .privileges ("Dropped privileges to UID=" ++ toString ids.uid ++ ", GID=" ++ toString ids.gid)

end Privilege

/-- A request to change ids. -/
inductive IdentityCall where
  | allGroups (gid : Nat)
  | allUsers (uid : Nat)
  | effectiveUser (uid : Nat)
  | effectiveGroup (gid : Nat)
deriving DecidableEq, Repr

def IdentityCall.text : IdentityCall → String
  | allGroups n => "setresgid(" ++ toString n ++ "," ++ toString n ++ "," ++ toString n ++ ")"
  | allUsers n => "setresuid(" ++ toString n ++ "," ++ toString n ++ "," ++ toString n ++ ")"
  | effectiveUser n => "seteuid(" ++ toString n ++ ")"
  | effectiveGroup n => "setegid(" ++ toString n ++ ")"

/-- A kernel whose answers are fixed beforehand, by error number, zero for success. A change that succeeds
shows in the real and effective id unless the id is stuck; the effective ids alone are never changed. -/
structure FixedKernel where
  ids : ProcessIds
  groupsErrno : Nat := 0
  usersErrno : Nat := 0
  effectiveUserErrno : Nat := 1
  effectiveGroupErrno : Nat := 1
  stuckGroup : Bool := false
  stuckUser : Bool := false
  calls : List IdentityCall := []

namespace FixedKernel

def answer (errno : Nat) : Except Nat Unit := if errno = 0 then .ok () else .error errno

def note (call : IdentityCall) : Op FixedKernel Unit := modify fun k => { k with calls := k.calls ++ [call] }

instance : IdentityKernel FixedKernel where
  ids k := k.ids
  setAllGroups gid := do
    note (.allGroups gid)
    let k ← get
    if k.groupsErrno = 0 ∧ !k.stuckGroup then set { k with ids := { k.ids with gid, egid := gid } }
    pure (answer k.groupsErrno)
  setAllUsers uid := do
    note (.allUsers uid)
    let k ← get
    if k.usersErrno = 0 ∧ !k.stuckUser then set { k with ids := { k.ids with uid, euid := uid } }
    pure (answer k.usersErrno)
  setEffectiveUser uid := do
    note (.effectiveUser uid)
    pure (answer (← get).effectiveUserErrno)
  setEffectiveGroup gid := do
    note (.effectiveGroup gid)
    pure (answer (← get).effectiveGroupErrno)

end FixedKernel

end ScreenLocker
