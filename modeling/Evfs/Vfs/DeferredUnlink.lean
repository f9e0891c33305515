import Evfs.Vfs.Unlink

/-!
# Deferred unlink

A session is a run of `open`, `close` and `unlink` on normal absolute paths that are dispatched to
some mount point. What each call owes to its caller is stated in terms of the history of the session
alone: `openFds` are the descriptors of a path that are open after it, and a path is `pending` when
it was unlinked while it had a descriptor and has had one ever since. The invariant `Recorded` says
that the descriptor table holds exactly that, and `deferred_unlink` that every call issues exactly
the method calls it should.
-/

namespace Evfs
open Lib
namespace Pimpl
variable {σ : Type} (B : Backend σ)

/-- The open descriptors of a path after a history, the latest label first. -/
def openFds (path : Str) : List Label → List Int
  | [] => []
  | .op (.open p _ _) (.ok fd) :: h => if p = path then openFds path h ++ [fd] else openFds path h
  | .op (.file .close fd) _ :: h => (openFds path h).erase fd
  | _ :: h => openFds path h

/-- Was the path unlinked while it had an open descriptor, and has it had one ever since? -/
def pending (path : Str) : List Label → Bool
  | [] => false
  | .op (.path .unlink p) _ :: h => (p = path ∧ openFds path h ≠ []) || pending path h
  | .op (.file .close fd) _ :: h => pending path h && (openFds path h).erase fd ≠ []
  | _ :: h => pending path h

/-- The opens of a history, those on other objects included. -/
def opens : List Label → Nat
  | [] => 0
  | .op (.open _ _ _) (.ok _) :: h => opens h + 1
  | .foreignOpen :: h => opens h + 1
  | _ :: h => opens h

/-- A normal absolute path that is dispatched to some mount point. -/
structure Served (s : Pimpl σ) (path : Str) : Prop where
  rooted : Path.hasRootPath path = true
  normal : Path.lexicallyNormal path = path
  found : ∃ k ∈ s.mounts, k <:+: path

/-- The operations of a session. -/
inductive InSession (s : Pimpl σ) : Action → Prop where
  | open {path flags mode} : Served s path → InSession s (.open path flags mode)
  | close {fd} : InSession s (.file .close fd)
  | unlink {path} : Served s path → InSession s (.path .unlink path)

/-- The steps of a session. -/
inductive SessionStep : Pimpl σ → Label → Pimpl σ → Prop where
  | op {s a r s'} : InSession s a → Step B s (.op a r) s' → SessionStep s (.op a r) s'
  | rehash {s s'} : Step B s .rehash s' → SessionStep s .rehash s'
  | foreignOpen {s s'} : Step B s .foreignOpen s' → SessionStep s .foreignOpen s'

/-- One call of `Filesystem::unlink` with the path, under a lock. -/
def UnlinkCall (path : Str) (evs : List Event) : Prop :=
  ∃ fs e, evs = [.lock fs, .call fs (.path .unlink path) e, .unlock fs]

/-- The call of `Filesystem::close` with the handle of the descriptor, under a lock. -/
def CloseCall (s : Pimpl σ) (fd : Int) (evs : List Event) : Prop :=
  ∃ fs fil e, s.fdContainer.byId.lookup fd = some fil ∧
    evs = [.lock fs, .call fs (.file .close fil) e, .unlock fs]

/-- What an operation of a session issues in a state, given the history before it. -/
inductive Issues (s : Pimpl σ) (h : List Label) : Action → Reply → List Event → Prop where
  /-- `open` unlinks nothing. -/
  | opened {path flags mode r evs} : (∀ fs p e, Event.call fs (.path .unlink p) e ∉ evs) →
    Issues s h (.open path flags mode) r evs
  /-- A path without descriptor is unlinked at once. -/
  | unlinked {path r evs} : openFds path h = [] → UnlinkCall path evs →
    Issues s h (.path .unlink path) r evs
  /-- A path with a descriptor is not. -/
  | deferred {path} : openFds path h ≠ [] → Issues s h (.path .unlink path) (.ok 0) []
  | badFd {fd} : (∀ path, fd ∉ openFds path h) → Issues s h (.file .close fd) (.error EBADF) []
  /-- The last descriptor of a pending path: first `close`, then `unlink`. -/
  | closedLast {path fd r evs evs'} : openFds path h = [fd] → pending path h = true →
    CloseCall s fd evs → UnlinkCall path evs' → Issues s h (.file .close fd) r (evs ++ evs')
  /-- Any other descriptor: only `close`. -/
  | closed {path fd r evs} : fd ∈ openFds path h →
    (∀ p, openFds p h = [fd] → pending p h = false) → CloseCall s fd evs →
    Issues s h (.file .close fd) r evs

/-- The entry of a path that the history asks for. -/
def entryAfter (path : Str) (h : List Label) : Option FileDescriptor :=
  if openFds path h = [] then none else some ⟨openFds path h, pending path h⟩

/-- The tables hold what the history says. -/
structure Recorded (s₀ : Pimpl σ) (h : List Label) (s : Pimpl σ) : Prop where
  idx : s.idx = s₀.idx + opens h
  wf : s.fdContainer.Wf s.idx
  entries (path : Str) : s.fdContainer.byPath.lookup path = entryAfter path h
  pending_open (path : Str) : openFds path h = [] → pending path h = false
  served {path} : path ∈ s.fdContainer.byPath → Served s path
  rooted {fd fil} : s.fdContainer.byId.lookup fd = some fil → fil.root ∈ s.mounts
  mounts : MountsWf B s

variable {B} {s s' s₀ : Pimpl σ} {h : List Label}

def Served.abs {path : Str} (sv : Served s path) : AbsPath := ⟨path, sv.rooted⟩

/-- The path is its own normal form. -/
lemma Served.abs_norm {path : Str} (sv : Served s path) : sv.abs.norm = path := sv.normal

/-- A mount is found for it. -/
lemma Served.mountPoint {path : Str} (sv : Served s path) :
    ∃ mp, findMountPoint s.mounts path = some mp := by
  cases hf : findMountPoint s.mounts path with
  | none =>
    obtain ⟨k, hk, ho⟩ := sv.found
    exact absurd ho (findMountPoint_eq_none.mp hf k hk)
  | some mp => exact ⟨mp, rfl⟩

/-- It is served as long as the mounts are there. -/
lemma Served.congr {path : Str} (sv : Served s path) (hm : ∀ k ∈ s.mounts, k ∈ s'.mounts) :
    Served s' path := by
  obtain ⟨k, hk, ho⟩ := sv.found
  exact ⟨sv.rooted, sv.normal, k, hm k hk, ho⟩

/-! ### The operations of a session -/

/-- The outcomes of `open` on a served path. -/
lemma open_served {path : Str} (flags : Flags) (mode : Int) (sv : Served s path) :
    ∃ evs s₁, Quiet B s s₁ ∧ s₁.log = s.log ++ evs ∧
      (∀ fs p e, Event.call fs (.path .unlink p) e ∉ evs) ∧
      ((∃ e, Pimpl.open B path flags mode s = (.error e, s₁)) ∨
        ∃ mp fil, findMountPoint s.mounts path = some mp ∧ fil.root = B.rootOf s.world mp.fs ∧
          Pimpl.open B path flags mode s = (.ok s₁.idx, { s₁ with
            fdContainer := s₁.fdContainer.insert s₁.idx path fil
            idx := nextIdx s₁.idx })) := by
  obtain ⟨mp, hf⟩ := sv.mountPoint
  have ha : absolutePath path = .ok path := by
    have e := sv.abs.absolutePath
    rwa [sv.abs_norm] at e
  unfold Pimpl.open
  simp only [ha, hf]
  split
  · exact ⟨_, _, Quiet.lock.trans Quiet.unlock, log_lock_unlock, by simp, .inl ⟨_, rfl⟩⟩
  · have q : Quiet B s (lockedCall B mp (.open path flags mode) s).2 := Quiet.lockedCall nofun
    have hl : (lockedCall B mp (.open path flags mode) s).2.log = _ := log_lockedCall
    split
    · rename_i s₁ h
      rw [h] at q hl
      exact ⟨_, s₁, q, hl, by simp, .inl ⟨_, rfl⟩⟩
    · rename_i fil s₁ h
      rw [h] at q hl
      obtain ⟨-, hr⟩ := B.open_stamp _ _ _ _ _ _ (congrArg Prod.fst h)
      exact ⟨_, s₁, q, hl, by simp, .inr ⟨mp, fil, rfl, hr, rfl⟩⟩

section Close
variable {fd : Int} {fil : FileHandle} {mp : MountPoint}

/-- `close` as an action. -/
lemma exec_close {e : ErrorCode} (hc : close B fd s = .ok (e, s')) :
    exec B (.file .close fd) s = .ok (reply e, s') := by
  show (close B fd s).map _ = _
  rw [hc]
  rfl

end Close

/-- The entry of a path by the history. -/
lemma openFds_of_entry {path : Str} {d : FileDescriptor} (e : entryAfter path h = some d) :
    d = ⟨openFds path h, pending path h⟩ ∧ openFds path h ≠ [] := by
  unfold entryAfter at e
  split at e
  · cases e
  · rename_i ne
    exact ⟨(Option.some.inj e).symm, ne⟩

section Recorded

/-- A path has an entry while it is open. -/
lemma Recorded.mem_byPath (rc : Recorded B s₀ h s) {path : Str} :
    path ∈ s.fdContainer.byPath ↔ openFds path h ≠ [] := by
  rw [← AList.lookup_isSome, rc.entries, entryAfter]
  split <;> rename_i e
  · simp [e]
  · simp [e]

/-- The entry of an open descriptor's path. -/
lemma Recorded.lookup (rc : Recorded B s₀ h s) {path : Str} {fd : Int}
    (hfd : fd ∈ openFds path h) :
    s.fdContainer.byPath.lookup path = some ⟨openFds path h, pending path h⟩ := by
  rw [rc.entries, entryAfter, if_neg (List.ne_nil_of_mem hfd)]

/-- A descriptor is open exactly when some path lists it. -/
lemma Recorded.mem_byId (rc : Recorded B s₀ h s) {fd : Int} :
    fd ∈ s.fdContainer.byId ↔ ∃ path, fd ∈ openFds path h := by
  constructor
  · intro hi
    obtain ⟨path, d, e, hd⟩ := rc.wf.listed hi
    rw [rc.entries] at e
    obtain ⟨rfl, -⟩ := openFds_of_entry e
    exact ⟨path, hd⟩
  · rintro ⟨path, hfd⟩
    exact rc.wf.handled (rc.lookup hfd) hfd

/-- Nothing is recorded at first. -/
lemma Recorded.init (reach : Reachable B s₀) (empty : s₀.fdContainer = {}) :
    Recorded B s₀ [] s₀ where
  idx := (Int.add_zero _).symm
  wf := empty ▸ FileDescriptorContainer.Wf.init
  entries path := by rw [empty]; rfl
  pending_open _ _ := rfl
  served hp := by rw [empty] at hp; cases hp
  rooted e := by rw [empty] at e; cases e
  mounts := MountsWf.reachable reach

/-- The invariant depends on what the tables hold and what the history says only. -/
lemma Recorded.congr {h' : List Label} (rc : Recorded B s₀ h s) (wf : MountsWf B s')
    (hx : s'.idx = s₀.idx + opens h')
    (hp : ∀ path, s'.fdContainer.byPath.lookup path = s.fdContainer.byPath.lookup path)
    (hi : ∀ fd, s'.fdContainer.byId.lookup fd = s.fdContainer.byId.lookup fd)
    (hm : ∀ k, k ∈ s'.mounts ↔ k ∈ s.mounts) (le : s.idx ≤ s'.idx)
    (hf : ∀ path, openFds path h' = openFds path h)
    (hd : ∀ path, pending path h' = pending path h) : Recorded B s₀ h' s' where
  idx := hx
  wf := by
    refine (rc.wf.mono le).congr hp fun fd => ?_
    rw [← AList.lookup_isSome, ← AList.lookup_isSome, hi]
  entries path := by rw [hp, rc.entries, entryAfter, entryAfter, hf, hd]
  pending_open path := by
    rw [hf, hd]
    exact rc.pending_open path
  served {path} hk := by
    rw [← AList.lookup_isSome, hp, AList.lookup_isSome] at hk
    exact (rc.served hk).congr fun k => (hm k).mpr
  rooted {fd fil} e := (hm _).mpr (rc.rooted ((hi fd).symm.trans e))
  mounts := wf

/-- A call that leaves the tables alone and that the history does not count. -/
lemma Recorded.quiet {h' : List Label} (rc : Recorded B s₀ h s) (q : Quiet B s s')
    (ho : opens h' = opens h) (hf : ∀ path, openFds path h' = openFds path h)
    (hd : ∀ path, pending path h' = pending path h) : Recorded B s₀ h' s' := by
  refine rc.congr (rc.mounts.quiet q) ?_ ?_ ?_ ?_ ?_ hf hd
  · rw [q.idx, rc.idx, ho]
  · exact fun path => by rw [q.fdContainer]
  · exact fun fd => by rw [q.fdContainer]
  · exact fun k => by rw [q.mounts]
  · exact q.idx.ge

/-- A successful `open`. -/
lemma Recorded.insert {path : Str} {flags : Flags} {mode : Int} {fil : FileHandle}
    (rc : Recorded B s₀ h s) (sv : Served s path) (hr : fil.root ∈ s.mounts)
    (lo : 0 ≤ s.idx) (hi : s.idx + 1 < 2 ^ 31) :
    Recorded B s₀ (.op (.open path flags mode) (.ok s.idx) :: h) { s with
      fdContainer := s.fdContainer.insert s.idx path fil
      idx := nextIdx s.idx } := by
  have hn := nextIdx_eq lo hi
  have new : ∀ p, openFds p (.op (.open path flags mode) (.ok s.idx) :: h) =
      if path = p then openFds p h ++ [s.idx] else openFds p h := fun _ => rfl
  have hsame : ∀ p, pending p (.op (.open path flags mode) (.ok s.idx) :: h) = pending p h :=
    fun _ => rfl
  constructor
  case idx =>
    show nextIdx s.idx = s₀.idx + (opens h + 1 : Nat)
    rw [hn, rc.idx]
    omega
  case wf => exact rc.wf.insert (show s.idx < nextIdx s.idx by omega)
  case entries =>
    intro p
    have hnorm := sv.normal
    by_cases hp : path = p
    · subst hp
      have e : (s.fdContainer.insert s.idx path fil).byPath.lookup (Path.lexicallyNormal path) = _ :=
        FileDescriptorContainer.lookup_insert
      rw [hnorm, rc.entries] at e
      have e' : entryAfter path (.op (.open path flags mode) (.ok s.idx) :: h) =
          some ⟨openFds path h ++ [s.idx], pending path h⟩ := by
        rw [entryAfter, new, if_pos rfl, hsame, if_neg (List.append_ne_nil_of_right_ne_nil _ (by simp))]
      rw [e, e', entryAfter]
      -- a path without descriptors has no entry, so no mark either
      split
      · rename_i e0
        rw [e0, rc.pending_open path e0]
        rfl
      · rfl
    · have hne : p ≠ Path.lexicallyNormal path := by rwa [hnorm, ne_comm]
      show (s.fdContainer.insert s.idx path fil).byPath.lookup p = _
      rw [FileDescriptorContainer.lookup_insert_ne hne, rc.entries, entryAfter, entryAfter, new,
        hsame, if_neg hp]
  case pending_open =>
    intro p e
    rw [new] at e
    rw [hsame]
    split at e
    · simp at e
    · exact rc.pending_open p e
  case served =>
    intro p hp
    rcases UnorderedMap.mem_emplace.mp (AList.mem_replace.mp hp) with e | hp
    · rw [e, sv.normal]
      exact sv.congr fun _ hk => hk
    · exact (rc.served hp).congr fun _ hk => hk
  case rooted =>
    intro fd fil' e
    rcases UnorderedMap.lookup_emplace_elim e with e | ⟨-, rfl⟩
    · exact rc.rooted e
    · exact hr
  case mounts => exact rc.mounts.restrict id rfl rfl

/-- Marking a path that has an open descriptor. -/
lemma Recorded.mark {path : Str} {r : Reply} (rc : Recorded B s₀ h s)
    (ho : openFds path h ≠ []) :
    Recorded B s₀ (.op (.path .unlink path) r :: h)
      { s with fdContainer := s.fdContainer.markForUnlink path } := by
  have he : s.fdContainer.byPath.lookup path = some ⟨openFds path h, pending path h⟩ := by
    rw [rc.entries, entryAfter, if_neg ho]
  have hsame : ∀ p, openFds p (.op (.path .unlink path) r :: h) = openFds p h := fun _ => rfl
  have new : ∀ p, pending p (.op (.path .unlink path) r :: h) =
      (decide (path = p ∧ openFds p h ≠ []) || pending p h) := fun _ => rfl
  constructor
  case idx => exact rc.idx
  case wf => exact rc.wf.markForUnlink
  case entries =>
    intro p
    by_cases hp : path = p
    · subst hp
      have e := FileDescriptorContainer.lookup_markForUnlink he
      rw [e, entryAfter, hsame, new, if_neg ho]
      simp [ho, FileDescriptor.markForUnlink]
    · show (s.fdContainer.markForUnlink path).byPath.lookup p = _
      rw [FileDescriptorContainer.lookup_markForUnlink_ne (Ne.symm hp), rc.entries, entryAfter,
        entryAfter, hsame, new]
      simp [hp]
  case pending_open =>
    intro p e
    rw [hsame] at e
    rw [new, rc.pending_open p e]
    simp [e]
  case served =>
    intro p hp
    obtain ⟨d, e⟩ := UnorderedMap.exists_lookup hp
    obtain ⟨d', e', -⟩ := FileDescriptorContainer.lookup_markForUnlink_elim e
    exact (rc.served (UnorderedMap.mem_of_lookup e')).congr fun _ hk => hk
  case rooted =>
    intro fd fil e
    rw [FileDescriptorContainer.byId_markForUnlink] at e
    exact rc.rooted e
  case mounts => exact rc.mounts.restrict id rfl rfl

/-- Closing a descriptor takes it off the path that lists it. -/
lemma Recorded.remove (rc : Recorded B s₀ h s) (fd : Int) (r : Reply) :
    Recorded B s₀ (.op (.file .close fd) r :: h)
      { s with fdContainer := (s.fdContainer.remove fd).2 } := by
  have hfds : ∀ p, openFds p (.op (.file .close fd) r :: h) = (openFds p h).erase fd := fun _ => rfl
  have hpend : ∀ p, pending p (.op (.file .close fd) r :: h) =
      (pending p h && decide ((openFds p h).erase fd ≠ [])) := fun _ => rfl
  constructor
  case idx => exact rc.idx
  case wf => exact rc.wf.remove
  case entries =>
    intro p
    show (s.fdContainer.remove fd).2.byPath.lookup p = _
    -- what is left of the list, and the mark as long as anything is
    rw [rc.wf.lookup_remove, rc.entries, entryAfter, entryAfter, hfds, hpend]
    by_cases h₀ : openFds p h = []
    · rw [h₀, List.erase_nil]
      rfl
    · rw [if_neg h₀, Option.bind_some, FileDescriptor.without]
      by_cases h₁ : (openFds p h).erase fd = []
      · rw [if_pos h₁]
        exact if_pos (List.isEmpty_iff.mpr h₁)
      · rw [if_neg h₁, decide_eq_true h₁, Bool.and_true]
        exact if_neg fun h' => h₁ (List.isEmpty_iff.mp h')
  case pending_open =>
    intro p e
    rw [hfds] at e
    rw [hpend, e]
    simp
  case served =>
    intro p hp
    exact (rc.served (FileDescriptorContainer.mem_byPath_remove hp)).congr fun _ hk => hk
  case rooted =>
    intro fd' fil e
    exact rc.rooted (FileDescriptorContainer.lookup_byId_remove e)
  case mounts => exact rc.mounts.restrict id rfl rfl

/-- `Filesystem::unlink` on a served path. -/
lemma unlink_served {path : Str} (sv : Served s path) :
    ∃ evs, UnlinkCall path evs ∧ (invokeFopsPath B .unlink path s).2.log = s.log ++ evs := by
  obtain ⟨mp, hf⟩ := sv.mountPoint
  have e := invokeFopsPath_found (B := B) .unlink (s := s) (p := sv.abs) (sv.abs_norm ▸ hf)
  have hl : (lockedCall B mp (.path .unlink path) s).2.log = _ := log_lockedCall
  rw [sv.abs_norm] at e
  have hl' : (invokeFopsPath B .unlink path s).2.log = _ :=
    (congrArg (fun r => Pimpl.log r.2) e).trans hl
  exact ⟨_, ⟨mp.fs, _, rfl⟩, hl'⟩

/-- `unlink` issues what it should. -/
lemma Recorded.unlink (rc : Recorded B s₀ h s) {path : Str} (sv : Served s path) :
    ∃ r s' evs, exec B (.path .unlink path) s = .ok (r, s') ∧ s'.log = s.log ++ evs ∧
      Issues s h (.path .unlink path) r evs ∧
      Recorded B s₀ (.op (.path .unlink path) r :: h) s' := by
  by_cases ho : openFds path h = []
  · have hn : path ∉ s.fdContainer.byPath := fun hm => rc.mem_byPath.mp hm ho
    obtain ⟨evs, uc, hl⟩ := unlink_served (B := B) sv
    have e : (Pimpl.unlink B path s).2 = (invokeFopsPath B .unlink path s).2 := by
      rw [unlink_of_notMem hn]
    refine ⟨_, _, evs, rfl, ?_, .unlinked ho uc, ?_⟩
    · exact (congrArg Pimpl.log e).trans hl
    · refine rc.quiet ?_ rfl (fun _ => rfl) fun p => ?_
      · show Quiet B s (Pimpl.unlink B path s).2
        rw [e]
        exact Quiet.invokeFopsPath
      · show (decide (path = p ∧ openFds p h ≠ []) || pending p h) = pending p h
        have hf : ¬ (path = p ∧ openFds p h ≠ []) := by
          rintro ⟨rfl, hne⟩
          exact hne ho
        simp only [hf, decide_false, Bool.false_or]
  · have hm := rc.mem_byPath.mpr ho
    have e := unlink_of_mem (B := B) hm
    refine ⟨_, _, [], rfl, ?_, ?_, ?_⟩
    · show (Pimpl.unlink B path s).2.log = _
      rw [e, List.append_nil]
    · show Issues s h _ (reply (Pimpl.unlink B path s).1) []
      rw [e]
      exact .deferred ho
    · show Recorded B s₀ _ (Pimpl.unlink B path s).2
      rw [e]
      exact rc.mark ho

/-- `open` issues what it should. -/
lemma Recorded.open (rc : Recorded B s₀ h s) {path : Str} {flags : Flags} {mode : Int}
    (sv : Served s path) (lo : 0 ≤ s.idx) :
    ∃ r s' evs, exec B (.open path flags mode) s = .ok (r, s') ∧ s'.log = s.log ++ evs ∧
      Issues s h (.open path flags mode) r evs ∧
      (s₀.idx + opens (.op (.open path flags mode) r :: h) < 2 ^ 31 →
        Recorded B s₀ (.op (.open path flags mode) r :: h) s') := by
  obtain ⟨evs, s₁, q, hl, hu, ⟨e, he⟩ | ⟨mp, fil, hf, hr, he⟩⟩ := open_served (B := B) flags mode sv
  · refine ⟨.error e, s₁, evs, congrArg Except.ok he, hl, .opened hu, fun _ => ?_⟩
    exact rc.quiet q rfl (fun _ => rfl) fun _ => rfl
  · refine ⟨.ok s₁.idx, _, evs, congrArg Except.ok he, hl, .opened hu, fun bound => ?_⟩
    have rc₁ : Recorded B s₀ h s₁ := rc.quiet q rfl (fun _ => rfl) fun _ => rfl
    have hb : s₀.idx + (opens h + 1 : Nat) < 2 ^ 31 := bound
    have hx := rc.idx
    refine rc₁.insert ?_ ?_ ?_ ?_
    · exact sv.congr fun k hk => by rwa [q.mounts]
    · obtain ⟨k, hk, -⟩ := lookup_of_findMountPoint hf
      rw [hr, rc.mounts.mounted hk, q.mounts]
      exact UnorderedMap.mem_of_lookup hk
    · rw [q.idx]
      exact lo
    · rw [q.idx]
      omega

/-- `close` issues what it should. -/
lemma Recorded.close (rc : Recorded B s₀ h s) (fd : Int) :
    ∃ r s' evs, exec B (.file .close fd) s = .ok (r, s') ∧ s'.log = s.log ++ evs ∧
      Issues s h (.file .close fd) r evs ∧ Recorded B s₀ (.op (.file .close fd) r :: h) s' := by
  by_cases hi : fd ∈ s.fdContainer.byId
  · obtain ⟨fil, hf⟩ := UnorderedMap.exists_lookup hi
    obtain ⟨mp, hm⟩ := UnorderedMap.exists_lookup (rc.rooted hf)
    obtain ⟨path, hfd⟩ := rc.mem_byId.mp hi
    have he := rc.lookup hfd
    have q : Quiet B s (lockedCall B mp (.file .close fil) s).2 := Quiet.lockedFile
    obtain ⟨evs, cc, hl⟩ : ∃ evs, CloseCall s fd evs ∧
        (lockedCall B mp (.file .close fil) s).2.log = s.log ++ evs :=
      ⟨_, ⟨mp.fs, fil, _, hf, rfl⟩, log_lockedCall⟩
    -- the state between `Filesystem::close` and a possible `Filesystem::unlink`
    have rc₁ : ∀ r, Recorded B s₀ (.op (.file .close fd) r :: h) (afterRemove B s fd fil mp) := by
      intro r
      have rq : Recorded B s₀ h (lockedCall B mp (.file .close fil) s).2 :=
        rc.quiet q rfl (fun _ => rfl) fun _ => rfl
      have hr := rq.remove fd r
      rwa [q.fdContainer] at hr
    -- the last descriptor of a marked path, or any other
    by_cases last : openFds path h = [fd] ∧ pending path h = true
    · have hrem : (s.fdContainer.remove fd).1 = some path :=
        rc.wf.unlink.mpr ⟨_, he, last.1, last.2⟩
      have served : Served (afterRemove B s fd fil mp) path :=
        (rc.served (UnorderedMap.mem_of_lookup he)).congr fun k hk => hk
      obtain ⟨evs', uc, hl'⟩ := unlink_served (B := B) served
      refine ⟨reply (invokeFopsPath B .unlink path (afterRemove B s fd fil mp)).1,
        (invokeFopsPath B .unlink path (afterRemove B s fd fil mp)).2, evs ++ evs',
        exec_close (close_unlinks hf hm hrem), ?_, .closedLast last.1 last.2 cc uc, ?_⟩
      · rw [← List.append_assoc, ← hl]
        exact hl'
      · exact (rc₁ _).quiet Quiet.invokeFopsPath rfl (fun _ => rfl) fun _ => rfl
    · have other : ∀ p, openFds p h = [fd] → pending p h = false := by
        intro p hp
        have hfd' : fd ∈ openFds p h := hp ▸ List.mem_singleton.mpr rfl
        obtain rfl := rc.wf.unique (rc.lookup hfd') he hfd' hfd
        exact Bool.eq_false_iff.mpr fun h2 => last ⟨hp, h2⟩
      have hrem : (s.fdContainer.remove fd).1 = none := by
        rw [Option.eq_none_iff_forall_ne_some]
        intro p hp
        obtain ⟨d, e, one, marked⟩ := rc.wf.unlink.mp hp
        rw [rc.entries] at e
        obtain ⟨rfl, -⟩ := openFds_of_entry e
        exact absurd marked (Bool.eq_false_iff.mp (other p one))
      exact ⟨_, _, evs, exec_close (close_keeps hf hm hrem), hl, .closed hfd other cc, rc₁ _⟩
  · have hn : ∀ path, fd ∉ openFds path h := fun path hp => hi (rc.mem_byId.mpr ⟨path, hp⟩)
    have hc : Pimpl.close B fd s = .ok (EBADF, s) := if_neg hi
    refine ⟨_, _, [], exec_close hc, (List.append_nil _).symm,
      .badFd hn, ?_⟩
    have rr := rc.remove fd (reply EBADF)
    rwa [FileDescriptorContainer.remove_of_notMem hi] at rr

/-- Every operation of a session returns, issues what it should and keeps the record. -/
lemma Recorded.op (rc : Recorded B s₀ h s) {a : Action} (al : InSession s a) (lo : 0 ≤ s.idx) :
    ∃ r s' evs, exec B a s = .ok (r, s') ∧ s'.log = s.log ++ evs ∧ Issues s h a r evs ∧
      (s₀.idx + opens (.op a r :: h) < 2 ^ 31 → Recorded B s₀ (.op a r :: h) s') := by
  cases al with
  | «open» sv => exact rc.open sv lo
  | close =>
    obtain ⟨r, s', evs, he, hl, hi, rc'⟩ := rc.close _
    exact ⟨r, s', evs, he, hl, hi, fun _ => rc'⟩
  | unlink sv =>
    obtain ⟨r, s', evs, he, hl, hi, rc'⟩ := rc.unlink sv
    exact ⟨r, s', evs, he, hl, hi, fun _ => rc'⟩

/-- A longer history has as many opens or more. -/
lemma opens_le {l : Label} : opens h ≤ opens (l :: h) := by
  conv_rhs => unfold opens
  split <;> simp_all

/-- One step of a session keeps the record. -/
lemma Recorded.step {l : Label} (rc : Recorded B s₀ h s) (lo : 0 ≤ s₀.idx)
    (bound : s₀.idx + opens (l :: h) < 2 ^ 31) (st : SessionStep B s l s') :
    Recorded B s₀ (l :: h) s' := by
  have hx := rc.idx
  cases st with
  | op al st =>
    obtain ⟨r', s'', evs, he, -, -, rc'⟩ := rc.op al (by omega)
    cases st with
    | op _ e =>
      obtain ⟨rfl, rfl⟩ := Prod.mk.inj (Except.ok.inj (he.symm.trans e))
      exact rc' bound
  | rehash st =>
    cases st with
    | rehash rh =>
      have hidx : s'.idx = s.idx := by rw [rh.rest]
      refine rc.congr (rc.mounts.step (.rehash rh)) (hidx.trans hx) (fun p => rh.byPath.lookup p)
        (fun fd => rh.byId.lookup fd) (fun k => rh.mounts.mem) hidx.ge (fun _ => rfl) fun _ => rfl
  | foreignOpen st =>
    cases st with
    | foreignOpen =>
      have hb : s₀.idx + (opens h + 1 : Nat) < 2 ^ 31 := bound
      have hn : nextIdx s.idx = s.idx + 1 := nextIdx_eq (by omega) (by omega)
      refine rc.congr (rc.mounts.step .foreignOpen) ?_ (fun _ => rfl) (fun _ => rfl)
        (fun _ => .rfl) ?_ (fun _ => rfl) fun _ => rfl
      · show nextIdx s.idx = s₀.idx + (opens h + 1 : Nat)
        omega
      · show s.idx ≤ nextIdx s.idx
        omega

/-- The tables hold what the history of the session says. -/
theorem Recorded.session (reach : Reachable B s₀) (empty : s₀.fdContainer = {}) (lo : 3 ≤ s₀.idx)
    (tr : Trace (SessionStep B) s₀ h s) (bound : s₀.idx + opens h < 2 ^ 31) :
    Recorded B s₀ h s := by
  apply tr.invariant (R := fun h s => s₀.idx + opens h < 2 ^ 31 → Recorded B s₀ h s)
  · exact fun _ => Recorded.init reach empty
  · intro h s l s' ih st bound
    have le := opens_le (h := h) (l := l)
    exact (ih (by omega)).step (by omega) bound st
  · exact bound

/-- After any session, with fewer than `2 ^ 31 - 3` opens in the process, every further operation of
it returns and issues exactly the method calls that the history asks for. -/
theorem deferred_unlink (reach : Reachable B s₀) (empty : s₀.fdContainer = {}) (lo : 3 ≤ s₀.idx)
    (tr : Trace (SessionStep B) s₀ h s) (bound : s₀.idx + opens h < 2 ^ 31) {a : Action}
    (al : InSession s a) :
    ∃ r s' evs, exec B a s = .ok (r, s') ∧ s'.log = s.log ++ evs ∧ Issues s h a r evs := by
  have rc := Recorded.session reach empty lo tr bound
  have hx := rc.idx
  obtain ⟨r, s', evs, he, hl, hi, -⟩ := rc.op al (by omega)
  exact ⟨r, s', evs, he, hl, hi⟩

end Recorded

/-- A file of the first volume is open and marked. -/
def markedFile : Pimpl (FsId → Str) :=
  play .accepting [.path .unlink "/volume1/f".toList] openFile

/-- The path of the sample is served. -/
lemma served_twoVolumes : Served PathCall.twoVolumes "/volume1/f".toList :=
  ⟨by decide, by decide, "/volume1".toList, by decide, by decide⟩

/-- The file is opened and then unlinked. -/
lemma session_markedFile :
    Trace (SessionStep .accepting) PathCall.twoVolumes
      [.op (.path .unlink "/volume1/f".toList) (.ok 0),
        .op (.open "/volume1/f".toList 0 0) (.ok 3)] markedFile := by
  have sv : Served openFile "/volume1/f".toList :=
    ⟨by decide, by decide, "/volume1".toList, by decide, by decide⟩
  have st : Step .accepting PathCall.twoVolumes (.op (.open "/volume1/f".toList 0 0) (.ok 3))
      openFile := .op (by decide) (exec_play (by decide) (by decide))
  have st' : Step .accepting openFile (.op (.path .unlink "/volume1/f".toList) (.ok 0))
      markedFile := .op (by decide) (exec_play (by decide) (by decide))
  exact .snoc (.snoc .nil (.op (.open served_twoVolumes) st)) (.op (.unlink sv) st')

/-- Closing the one descriptor of a marked file. -/
theorem deferred_unlink_markedFile :
    ∃ r s' evs, exec .accepting (.file .close 3) markedFile = .ok (r, s') ∧
      s'.log = markedFile.log ++ evs ∧
      Issues markedFile [.op (.path .unlink "/volume1/f".toList) (.ok 0),
        .op (.open "/volume1/f".toList 0 0) (.ok 3)] (.file .close 3) r evs :=
  deferred_unlink PathCall.reachable_twoVolumes rfl (by decide) session_markedFile (by decide) .close

end Pimpl
end Evfs
