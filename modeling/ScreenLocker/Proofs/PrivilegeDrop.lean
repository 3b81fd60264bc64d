import ScreenLocker.Privilege
import ScreenLocker.Proofs.Run

/-! Privileges that are given up are gone. A process has three ids of each kind, and the kernel lets it set them
to what it has already, or to anything while its effective user is 0. Whatever ids it starts with, a drop that
succeeds has made all three the real one, of the groups and then of the users, and after that no request changes
anything any more. -/

namespace ScreenLocker

namespace Privilege

inductive Kind where
  | users
  | groups
deriving DecidableEq, Repr

/-- The ids of one kind. -/
structure Ids where
  real : Nat
  effective : Nat
  saved : Nat
deriving DecidableEq, Repr

/-- What the three ids are to become. One that is left out stays as it is. -/
structure Wish where
  real : Option Nat := none
  effective : Option Nat := none
  saved : Option Nat := none
deriving DecidableEq, Repr

/-- A request to the kernel: for all three ids at once, or for the effective one alone. -/
inductive Request where
  | setAll (kind : Kind) (wish : Wish)
  | setEffective (kind : Kind) (id : Nat)
deriving DecidableEq, Repr

namespace Ids

def same (id : Nat) : Ids := ⟨id, id, id⟩

def toList (ids : Ids) : List Nat := [ids.real, ids.effective, ids.saved]

end Ids

namespace Wish

def same (id : Nat) : Wish := ⟨some id, some id, some id⟩

def named (w : Wish) : List Nat := [w.real, w.effective, w.saved].filterMap id

def applied (w : Wish) (ids : Ids) : Ids :=
  ⟨w.real.getD ids.real, w.effective.getD ids.effective, w.saved.getD ids.saved⟩

end Wish

namespace Request

def kind : Request → Kind
  | setAll kind _ => kind
  | setEffective kind _ => kind

def wish : Request → Wish
  | setAll _ wish => wish
  | setEffective _ id => { effective := some id }

end Request

/-- The request to make all ids of a kind the same. -/
def claim (kind : Kind) (id : Nat) : Request := .setAll kind (.same id)

/-- The error number of a request that is not permitted. -/
def notPermitted : Nat := 1

/-- A process as its ids go. -/
structure Process where
  user : Ids
  group : Ids
  /-- What the next requests for all ids at once run into before they are looked at: an error number, or nothing. -/
  obstacles : List (Option Nat) := []
  /-- The requests so far, each with the error number if it was refused. -/
  record : List (Request × Option Nat) := []

namespace Process

def ids (p : Process) : Kind → Ids
  | .users => p.user
  | .groups => p.group

def withIds (p : Process) (ids : Ids) : Kind → Process
  | .users => { p with user := ids }
  | .groups => { p with group := ids }

/-- Whether the kernel lets the process have what it asks for. -/
def Permits (p : Process) (r : Request) : Prop :=
  p.user.effective = 0 ∨ ∀ id ∈ r.wish.named, id ∈ (p.ids r.kind).toList

instance (p : Process) (r : Request) : Decidable (p.Permits r) := inferInstanceAs (Decidable (_ ∨ _))

def obstacle (p : Process) : Request → Option Nat
  | .setAll _ _ => p.obstacles.headD none
  | .setEffective _ _ => none

def refusal (p : Process) (r : Request) : Option Nat :=
  (p.obstacle r).or (if p.Permits r then none else some notPermitted)

def granted (p : Process) (r : Request) : Process := p.withIds (r.wish.applied (p.ids r.kind)) r.kind

/-- The process after a request with this answer, its ids apart. -/
def noting (r : Request) (answer : Option Nat) (p : Process) : Process :=
  { p with
    obstacles := match r with
      | .setAll _ _ => p.obstacles.tail
      | .setEffective _ _ => p.obstacles
    record := p.record ++ [(r, answer)] }

def request (r : Request) : Op Process (Except Nat Unit) := modifyGet fun p =>
  match p.refusal r with
  | some errno => (.error errno, p.noting r (some errno))
  | none => (.ok (), (p.granted r).noting r none)

instance : IdentityKernel Process where
  ids p := ⟨p.user.real, p.user.effective, p.group.real, p.group.effective⟩
  setAllGroups gid := request (claim .groups gid)
  setAllUsers uid := request (claim .users uid)
  setEffectiveUser uid := request (.setEffective .users uid)
  setEffectiveGroup gid := request (.setEffective .groups gid)

@[simp] theorem setAllGroups_eq (gid : Nat) :
    (IdentityKernel.setAllGroups gid : Op Process _) = request (claim .groups gid) := rfl

@[simp] theorem setAllUsers_eq (uid : Nat) :
    (IdentityKernel.setAllUsers uid : Op Process _) = request (claim .users uid) := rfl

@[simp] theorem setEffectiveUser_eq (uid : Nat) :
    (IdentityKernel.setEffectiveUser uid : Op Process _) = request (.setEffective .users uid) := rfl

@[simp] theorem setEffectiveGroup_eq (gid : Nat) :
    (IdentityKernel.setEffectiveGroup gid : Op Process _) = request (.setEffective .groups gid) := rfl

theorem request_refused {p : Process} {r : Request} {errno : Nat} (h : p.refusal r = some errno) :
    outcome (request r) p = (.error errno, p.noting r (some errno)) := by
  simp [request, h]

theorem request_granted {p : Process} {r : Request} (h : p.refusal r = none) :
    outcome (request r) p = (.ok (), (p.granted r).noting r none) := by
  simp [request, h]

theorem refusal_permitted {p : Process} {r : Request} (h : p.Permits r) : p.refusal r = p.obstacle r := by
  simp [refusal, h]

theorem permits_of_granted {p : Process} {r : Request} (h : p.refusal r = none) : p.Permits r := by
  apply Decidable.byContradiction
  intro hforbids
  simp [refusal, hforbids] at h

theorem refusal_effective {p : Process} {kind : Kind} {id : Nat} :
    p.refusal (.setEffective kind id) =
      if p.user.effective = 0 ∨ id ∈ (p.ids kind).toList then none else some notPermitted := by
  have hnamed : (Request.setEffective kind id).wish.named = [id] := rfl
  by_cases h : p.user.effective = 0 ∨ id ∈ (p.ids kind).toList
  · have hpermits : p.Permits (.setEffective kind id) := by
      rcases h with hroot | hown
      · exact .inl hroot
      · refine .inr fun other hother => ?_
        rw [hnamed, List.mem_singleton] at hother
        exact hother ▸ hown
    rw [refusal_permitted hpermits, if_pos h]
    rfl
  · have hforbids : ¬p.Permits (.setEffective kind id) := by
      rintro (hroot | hown)
      · exact h (.inl hroot)
      · exact h (.inr (hown id (hnamed ▸ List.mem_singleton_self id)))
    rw [refusal, if_neg hforbids, if_neg h]
    rfl

/-- The real id can always be claimed, unless something stands in the way. -/
theorem refusal_claim (p : Process) (kind : Kind) :
    p.refusal (claim kind (p.ids kind).real) = p.obstacles.headD none := by
  refine refusal_permitted (.inr fun id hid => ?_)
  obtain rfl : id = (p.ids kind).real := by
    simpa [claim, Request.wish, Wish.named, Wish.same] using hid
  exact List.mem_cons_self

theorem claim_granted {p : Process} {kind : Kind} {id : Nat} (h : p.refusal (claim kind id) = none) :
    ∃ p', outcome (request (claim kind id)) p = (.ok (), p') ∧
      p'.record = p.record ++ [(claim kind id, none)] ∧ p'.obstacles = p.obstacles.tail ∧
      ∀ k, p'.ids k = if k = kind then .same id else p.ids k := by
  refine ⟨_, request_granted h, ?_, ?_, ?_⟩
  · cases kind <;> rfl
  · cases kind <;> rfl
  · intro k
    cases kind <;> cases k <;> rfl

/-- All ids of a kind are the same. -/
structure Settled (user group : Nat) (p : Process) : Prop where
  user : p.user = .same user
  group : p.group = .same group

theorem Settled.noting {user group : Nat} {p : Process} (h : Settled user group p) (r : Request)
    (answer : Option Nat) : Settled user group (p.noting r answer) := ⟨h.user, h.group⟩

theorem Settled.ids {user group : Nat} {p : Process} (h : Settled user group p) (kind : Kind) :
    ∃ id, p.ids kind = .same id := by
  cases kind with
  | users => exact ⟨user, h.user⟩
  | groups => exact ⟨group, h.group⟩

theorem applied_own {id : Nat} {w : Wish} (h : ∀ n ∈ w.named, n ∈ (Ids.same id).toList) :
    w.applied (.same id) = .same id := by
  have hown : ∀ o ∈ [w.real, w.effective, w.saved], o.getD id = id := by
    intro o ho
    cases o with
    | none => rfl
    | some n => simpa [Ids.same, Ids.toList] using h n (List.mem_filterMap.mpr ⟨some n, ho, rfl⟩)
  simp only [Wish.applied, Ids.same]
  rw [hown w.real (by simp), hown w.effective (by simp), hown w.saved (by simp)]

/-- What is settled under a user other than 0 stays so, whatever is asked for. -/
theorem Settled.request {user group : Nat} {p : Process} (h : Settled user group p) (huser : user ≠ 0)
    (r : Request) : Settled user group (outcome (request r) p).2 := by
  cases hrefusal : p.refusal r with
  | some errno =>
    rw [request_refused hrefusal]
    exact h.noting r _
  | none =>
    have hown : ∀ id ∈ r.wish.named, id ∈ (p.ids r.kind).toList := by
      refine (permits_of_granted hrefusal).resolve_left fun hroot => huser ?_
      rwa [h.user] at hroot
    obtain ⟨id, hids⟩ := h.ids r.kind
    have hsame : p.granted r = p := by
      rw [hids] at hown
      rw [granted, hids, applied_own hown, ← hids]
      cases r.kind <;> rfl
    rw [request_granted hrefusal, hsame]
    exact h.noting r _

end Process

open Process (Settled request)

/-- Asks for another effective id, and complains if it is granted. -/
def probe (kind : Kind) (id own : Nat) (complaint : Error) : Try Process Unit := do
  if id ≠ own then
    if (← (request (.setEffective kind id) : Op Process _)).isOk then throw complaint

/-- A call that asked for another effective id and did not get it. -/
def Futile (call : Request × Option Nat) : Prop := ∃ kind id errno, call = (.setEffective kind id, some errno)

/-- The drop has failed, and says so. -/
def OfPrivilege (e : Error) : Prop := ∃ text, e = .privilege text

section Verify

variable {p : Process} {earlier : ProcessIds}

/-- What is found out when `what` can be set to `id` again. -/
def regained (what : String) (id : Nat) : Error :=
  .privilege (what ++ toString id ++ " after dropping privileges")

theorem tried_verify (h : Settled earlier.uid earlier.gid p) :
    tried (verifyCannotRegain earlier) p = tried (do
      probe .users earlier.euid earlier.uid (regained "Able to regain effective UID " earlier.euid)
      probe .groups earlier.egid earlier.gid (regained "Able to regain effective GID " earlier.egid)) p := by
  have heuid : (IdentityKernel.ids p).euid = earlier.uid := congrArg Ids.effective h.user
  have hegid : (IdentityKernel.ids p).egid = earlier.gid := congrArg Ids.effective h.group
  by_cases hu : earlier.euid = earlier.uid
  · simp [verifyCannotRegain, probe, regained, heuid, hegid, hu]
  · cases hanswer : (outcome (request (.setEffective .users earlier.euid)) p).1.isOk <;>
      simp [verifyCannotRegain, probe, regained, heuid, hegid, hu, hanswer]

theorem probe_settled {user group : Nat} (h : Settled user group p) (hunprivileged : user ≠ 0) {kind : Kind}
    {own : Nat} (hown : (p.ids kind).real = own) (id : Nat) (complaint : Error) :
    ∃ calls p', tried (probe kind id own complaint) p = (.ok (), p') ∧ p'.record = p.record ++ calls ∧
      Settled user group p' ∧ ∀ call ∈ calls, Futile call := by
  by_cases hsame : id = own
  · exact ⟨[], p, by simp [probe, hsame], (List.append_nil _).symm, h, by simp⟩
  have hrefusal : p.refusal (.setEffective kind id) = some notPermitted := by
    obtain ⟨only, honly⟩ := h.ids kind
    obtain rfl : only = own := by rw [← hown, honly]; rfl
    simp [Process.refusal_effective, honly, h.user, Ids.same, Ids.toList, hsame, hunprivileged]
  refine ⟨[(.setEffective kind id, some notPermitted)],
    p.noting (.setEffective kind id) (some notPermitted), ?_, rfl, h.noting _ _, by simp [Futile]⟩
  simp [probe, hsame, Process.request_refused hrefusal, Except.isOk, Except.toBool]

theorem probe_root (hroot : p.user.effective = 0) (kind : Kind) {id own : Nat} (hother : id ≠ own)
    (complaint : Error) :
    ∃ p', tried (probe kind id own complaint) p = (.error complaint, p') ∧
      p'.record = p.record ++ [(.setEffective kind id, none)] := by
  have hrefusal : p.refusal (.setEffective kind id) = none := by
    rw [Process.refusal_effective, if_pos (.inl hroot)]
  refine ⟨(p.granted (.setEffective kind id)).noting (.setEffective kind id) none, ?_, ?_⟩
  · simp [probe, hother, Process.request_granted hrefusal, Except.isOk, Except.toBool]
  · cases kind <;> rfl

/-- A process that is settled under a user other than 0 is found to be so, and stays so. -/
theorem verify_settled (h : Settled earlier.uid earlier.gid p) (hunprivileged : earlier.uid ≠ 0) :
    ∃ calls p', tried (verifyCannotRegain earlier) p = (.ok (), p') ∧ p'.record = p.record ++ calls ∧
      Settled earlier.uid earlier.gid p' ∧ ∀ call ∈ calls, Futile call := by
  have huser : (p.ids .users).real = earlier.uid := congrArg Ids.real h.user
  obtain ⟨users, p₁, hfirst, hrecord₁, h₁, husers⟩ := probe_settled h hunprivileged huser earlier.euid
    (regained "Able to regain effective UID " earlier.euid)
  have hgroup : (p₁.ids .groups).real = earlier.gid := congrArg Ids.real h₁.group
  obtain ⟨groups, p₂, hsecond, hrecord₂, h₂, hgroups⟩ := probe_settled h₁ hunprivileged hgroup earlier.egid
    (regained "Able to regain effective GID " earlier.egid)
  refine ⟨users ++ groups, p₂, ?_, ?_, h₂, List.forall_mem_append.mpr ⟨husers, hgroups⟩⟩
  · simp [tried_verify h, hfirst, hsecond]
  · rw [hrecord₂, hrecord₁, List.append_assoc]

/-- A process that is settled under user 0 can have another id again, and is found out. -/
theorem verify_root (h : Settled earlier.uid earlier.gid p) (hroot : earlier.uid = 0)
    (helevated : earlier.euid ≠ earlier.uid ∨ earlier.egid ≠ earlier.gid) :
    ∃ e kind id p', tried (verifyCannotRegain earlier) p = (.error e, p') ∧ OfPrivilege e ∧
      p'.record = p.record ++ [(.setEffective kind id, none)] := by
  have hzero : p.user.effective = 0 := by
    rw [h.user]
    exact hroot
  by_cases hu : earlier.euid = earlier.uid
  · have hg : earlier.egid ≠ earlier.gid := helevated.resolve_left (not_not_intro hu)
    let complaint := regained "Able to regain effective GID " earlier.egid
    obtain ⟨p', hprobe, hrecord⟩ := probe_root hzero .groups hg complaint
    have hpass (complaint : Error) :
        tried (probe .users earlier.euid earlier.uid complaint) p = (.ok (), p) := by
      simp [probe, hu]
    exact ⟨complaint, .groups, earlier.egid, p', by simp [tried_verify h, hpass, hprobe, complaint], ⟨_, rfl⟩,
      hrecord⟩
  · let complaint := regained "Able to regain effective UID " earlier.euid
    obtain ⟨p', hprobe, hrecord⟩ := probe_root hzero .users hu complaint
    exact ⟨complaint, .users, earlier.euid, p', by simp [tried_verify h, hprobe, complaint], ⟨_, rfl⟩, hrecord⟩

end Verify

/-- What is said when the kernel does not make all ids of a kind the same. -/
def unchanged (call : String) (id errno : Nat) : Error :=
  .privilege ("Failed to " ++ call ++ "(" ++ toString id ++ "): " ++ (Fault.os errno).message)

/-- How a drop can go: its result, the requests that it makes, and the process that it leaves. -/
inductive Course (p : Process) : Except Error Unit → List (Request × Option Nat) → Process → Prop where
  | needless (user : p.user.real = p.user.effective) (group : p.group.real = p.group.effective) :
    Course p (.ok ()) [] p
  | groupsRefused {e : Error} {errno : Nat} {p' : Process} (cause : OfPrivilege e)
      (obstacle : p.obstacles.headD none = some errno) :
    Course p (.error e) [(claim .groups p.group.real, some errno)] p'
  | usersRefused {e : Error} {errno : Nat} {p' : Process} (cause : OfPrivilege e)
      (obstacle : p.obstacles.tail.headD none = some errno) :
    Course p (.error e) [(claim .groups p.group.real, none), (claim .users p.user.real, some errno)] p'
  | reversible {e : Error} {kind : Kind} {id : Nat} {p' : Process} (cause : OfPrivilege e)
      (root : p.user.real = 0) :
    Course p (.error e) [(claim .groups p.group.real, none), (claim .users p.user.real, none),
      (.setEffective kind id, none)] p'
  | dropped {probes : List (Request × Option Nat)} {p' : Process} (unprivileged : p.user.real ≠ 0)
      (futile : ∀ call ∈ probes, Futile call) (settled : Settled p.user.real p.group.real p') :
    Course p (.ok ())
      ((claim .groups p.group.real, none) :: (claim .users p.user.real, none) :: probes) p'

/-- When both changes go through, the drop comes to what its check comes to. -/
theorem tried_drop {p p₁ p₂ : Process} (helevated : (IdentityKernel.ids p).isElevated = true)
    (hgroups : outcome (request (claim .groups p.group.real)) p = (.ok (), p₁))
    (husers : outcome (request (claim .users p.user.real)) p₁ = (.ok (), p₂)) :
    tried drop p = tried (verifyCannotRegain (IdentityKernel.ids p)) p₂ := by
  replace hgroups : outcome (request (claim .groups (IdentityKernel.ids p).gid)) p = (.ok (), p₁) := hgroups
  replace husers : outcome (request (claim .users (IdentityKernel.ids p).uid)) p₁ = (.ok (), p₂) := husers
  rcases hverify : tried (verifyCannotRegain (IdentityKernel.ids p)) p₂ with ⟨answer, p'⟩
  cases answer <;> simp [drop, helevated, hgroups, husers, hverify]

theorem drop_course (p : Process) : ∃ calls, (tried drop p).2.record = p.record ++ calls ∧
    Course p (tried drop p).1 calls (tried drop p).2 := by
  let earlier : ProcessIds := IdentityKernel.ids p
  by_cases hplain : p.user.real = p.user.effective ∧ p.group.real = p.group.effective
  · have hids : earlier.isElevated = false := by
      simpa [earlier, IdentityKernel.ids, ProcessIds.isElevated] using hplain
    have hdrop : tried drop p = (.ok (), p) := by
      simp [drop, earlier, hids]
    rw [hdrop]
    exact ⟨[], (List.append_nil _).symm, .needless hplain.1 hplain.2⟩
  have hids : earlier.isElevated = true := by
    simpa [earlier, IdentityKernel.ids, ProcessIds.isElevated, Decidable.imp_iff_not_or] using hplain
  have hgroups : p.refusal (claim .groups earlier.gid) = p.obstacles.headD none :=
    Process.refusal_claim p .groups
  cases hfirst : p.obstacles.headD none with
  | some errno =>
    have hdropped := Process.request_refused (hgroups.trans hfirst)
    have hdrop : tried drop p =
        (.error (unchanged "setresgid" earlier.gid errno), p.noting (claim .groups earlier.gid) (some errno)) := by
      simp [drop, earlier, hids, hdropped, unchanged]
    rw [hdrop]
    exact ⟨_, rfl, .groupsRefused ⟨_, rfl⟩ hfirst⟩
  | none =>
    obtain ⟨p₁, hdropped₁, hrecord₁, hobstacles, hids₁⟩ := Process.claim_granted (hgroups.trans hfirst)
    have huser₁ : p₁.user = p.user := hids₁ .users
    have hgroup₁ : p₁.group = .same earlier.gid := hids₁ .groups
    have husers : p₁.refusal (claim .users earlier.uid) = p.obstacles.tail.headD none := by
      have hreal : earlier.uid = (p₁.ids .users).real := congrArg Ids.real huser₁.symm
      rw [hreal, Process.refusal_claim, hobstacles]
    cases hsecond : p.obstacles.tail.headD none with
    | some errno =>
      have hdropped := Process.request_refused (husers.trans hsecond)
      have hdrop : tried drop p =
          (.error (unchanged "setresuid" earlier.uid errno), p₁.noting (claim .users earlier.uid) (some errno)) := by
        simp [drop, earlier, hids, hdropped₁, hdropped, unchanged]
      rw [hdrop]
      refine ⟨_, ?_, .usersRefused ⟨_, rfl⟩ hsecond⟩
      change p₁.record ++ _ = _
      rw [hrecord₁, List.append_assoc]
      rfl
    | none =>
      obtain ⟨p₂, hdropped₂, hrecord₂, -, hids₂⟩ := Process.claim_granted (husers.trans hsecond)
      have hsettled : Settled earlier.uid earlier.gid p₂ := ⟨hids₂ .users, (hids₂ .groups).trans hgroup₁⟩
      rw [hrecord₁, List.append_assoc] at hrecord₂
      by_cases hroot : earlier.uid = 0
      · have helevated : earlier.euid ≠ earlier.uid ∨ earlier.egid ≠ earlier.gid := by
          rcases Decidable.not_and_iff_not_or_not.mp hplain with huser | hgroup
          · exact .inl (Ne.symm huser)
          · exact .inr (Ne.symm hgroup)
        obtain ⟨e, kind, id, p', hverify, hcause, hrecord⟩ := verify_root hsettled hroot helevated
        rw [hrecord₂, List.append_assoc] at hrecord
        rw [tried_drop hids hdropped₁ hdropped₂, hverify]
        exact ⟨_, hrecord, .reversible hcause hroot⟩
      · obtain ⟨calls, p', hverify, hrecord, hleft, hfutile⟩ := verify_settled hsettled hroot
        rw [hrecord₂, List.append_assoc] at hrecord
        rw [tried_drop hids hdropped₁ hdropped₂, hverify]
        exact ⟨_, hrecord, .dropped hroot hfutile hleft⟩

theorem settled_final {user group : Nat} {p : Process} (h : Settled user group p) (huser : user ≠ 0)
    (requests : List Request) : Settled user group (Run.final request requests p) :=
  Run.holds_final (P := fun _ p => Settled user group p) (fun _ _ r hp => hp.request huser r) requests h

/-- A change that is refused is the last request, and the drop fails over it. -/
theorem Course.refused {p p' : Process} {r : Except Error Unit} {calls : List (Request × Option Nat)}
    (h : Course p r calls p') {before after : List (Request × Option Nat)} {kind : Kind} {wish : Wish}
    {errno : Nat} (hcalls : calls = before ++ (.setAll kind wish, some errno) :: after) :
    after = [] ∧ ∃ text, r = .error (.privilege text) := by
  have hmem : (.setAll kind wish, some errno) ∈ calls := hcalls ▸ List.mem_append_cons_self
  cases h with
  | needless => simp at hmem
  | groupsRefused cause =>
    obtain ⟨text, rfl⟩ := cause
    cases before with
    | nil => exact ⟨(List.cons.inj hcalls).2.symm, text, rfl⟩
    | cons => simp at hcalls
  | usersRefused cause =>
    obtain ⟨text, rfl⟩ := cause
    match before with
    | [] => simp at hcalls
    | [_] => exact ⟨(by simpa using hcalls : _ ∧ _ ∧ after = []).2.2, text, rfl⟩
    | _ :: _ :: _ => simp at hcalls
  | reversible => simp at hmem
  | dropped _ futile =>
    rcases List.mem_cons.mp hmem with hgroups | hmem
    · simp at hgroups
    rcases List.mem_cons.mp hmem with husers | hprobe
    · simp at husers
    obtain ⟨_, _, _, hfutile⟩ := futile _ hprobe
    simp at hfutile

/-- However it goes, a drop that succeeds was needless, and then nothing was asked for, or it has made the three
group ids and then the three user ids the real one, and whatever is asked for later they stay so: an effective id that
was another is gone. It does succeed if the real user is not 0 and nothing stands in the way of its two changes. One
that is refused is the last that is asked for, and the drop fails over it. -/
theorem dropped_for_good (p : Process) :
    let dropped := tried (drop : Try Process Unit) p
    ∃ calls, dropped.2.record = p.record ++ calls ∧
      (dropped.1 = .ok () →
        (p.user.real = p.user.effective ∧ p.group.real = p.group.effective ∧ calls = []) ∨
        ((∃ probes, calls = (claim .groups p.group.real, none) :: (claim .users p.user.real, none) :: probes ∧
          ∀ call ∈ probes, Futile call) ∧
        Settled p.user.real p.group.real dropped.2 ∧
        ∀ requests, Settled p.user.real p.group.real (Run.final request requests dropped.2))) ∧
      (p.user.real ≠ 0 → (∀ obstacle ∈ p.obstacles.take 2, obstacle = none) → dropped.1 = .ok ()) ∧
      ∀ before kind wish errno after, calls = before ++ (.setAll kind wish, some errno) :: after →
        after = [] ∧ ∃ text, dropped.1 = .error (.privilege text) := by
  intro dropped
  obtain ⟨calls, hrecord, hcourse⟩ := drop_course p
  refine ⟨calls, hrecord, ?_, ?_, fun _ _ _ _ _ hcalls => hcourse.refused hcalls⟩
  · intro hok
    replace hcourse : Course p (.ok ()) calls dropped.2 := hok ▸ hcourse
    clear_value dropped
    generalize dropped.2 = p' at hcourse
    cases hcourse with
    | needless user group => exact .inl ⟨user, group, rfl⟩
    | dropped unprivileged futile settled =>
      exact .inr ⟨⟨_, rfl, futile⟩, settled, settled_final settled unprivileged⟩
  · intro hunprivileged hfree
    have hnone : p.obstacles.headD none = none ∧ p.obstacles.tail.headD none = none := by
      match hobstacles : p.obstacles with
      | [] => exact ⟨rfl, rfl⟩
      | [o] => simpa [hobstacles] using hfree
      | o :: o' :: rest => simpa [hobstacles] using hfree
    replace hcourse : Course p dropped.1 calls dropped.2 := hcourse
    clear_value dropped
    generalize dropped.1 = r at hcourse
    cases hcourse with
    | needless => rfl
    | groupsRefused _ obstacle => exact absurd (hnone.1.symm.trans obstacle) nofun
    | usersRefused _ obstacle => exact absurd (hnone.2.symm.trans obstacle) nofun
    | reversible _ root => exact absurd root hunprivileged
    | dropped => rfl

end Privilege

end ScreenLocker
