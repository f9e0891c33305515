import Evfs.Vfs.Deadlock
import Evfs.Vfs.OpEffects

/-!
# The lock of a mount point around the methods of its filesystem

Every call runs the methods of a mounted filesystem under the lock of its mount point, so that no two
of them overlap, except for the loop of `umount_all`. There the `locked` is a temporary: the lock is
released again before `unmount` is called.
-/

namespace Evfs
open Lib

/-- The filesystem is in a mount point of the table. -/
def Pimpl.InTable {σ : Type} (s : Pimpl σ) (fs : FsId) : Prop :=
  ∃ root mp, s.mountOf root = some mp ∧ mp.fs = fs

/-- The call has the mount point of the filesystem at hand, or its lock. -/
def Hand.Known (g : Hand) (fs : FsId) : Prop := g.Refers fs ∨ .mount fs ∈ g.held

/-- A method that is running is under the lock of its mount point, or `mount` has just created the
filesystem. -/
def Hand.Covered (g : Hand) : Prop :=
  ∀ fs, g.inside = some fs → .mount fs ∈ g.held ∨ g.made = some fs

section Operations
variable {σ : Type} {B : Backend σ} {s s' : Pimpl σ} {o : Op} {r : o.Res} {g : Hand} {fs : FsId}
  {strict : Bool}

/-- What a thread has in hand stays covered. -/
lemma Hand.Covered.next (cov : g.Covered) (req : g.Req true o) (r : o.Res) :
    (Hand.next o r g).Covered := by
  intro fs e
  -- an operation that needs to be outside of a method
  have out : g.inside = none → g.inside = some fs → False := fun h e => nomatch h.symm.trans e
  cases o with
  | acquire l => exact (cov fs e).imp_left (List.mem_cons_of_mem _)
  | release l =>
    cases l with
    | vfs => exact (out req e).elim
    | mount fs' => exact (out req.1 e).elim
    | disk d =>
      refine (cov fs e).imp_left fun h => ?_
      exact (List.mem_erase_of_ne (by nofun)).mpr h
  | enter fs' c =>
    cases e
    exact req.2.2.imp_left fun h => h.2 rfl
  | leave fs' c => cases e
  | create factory disk => exact (out req e).elim
  | emplaceMount mp =>
    cases r with
    | true => exact (out req.1 e).elim
    | false => exact cov fs e
  | _ => exact cov fs e

/-- A thread learns filesystems from the table only. -/
lemma known_next (st : o.Sem B s r s') (req : g.Req strict o)
    (h : (Hand.next o r g).Known fs) : g.Known fs ∨ s.InTable fs := by
  rcases h with (⟨mp, e, rfl⟩ | ⟨mp, e, rfl⟩) | h
  · rcases st.mount e with e | ⟨root, e, -⟩
    · exact .inl (.inl (.inl ⟨mp, e, rfl⟩))
    · exact .inr ⟨root, mp, e, rfl⟩
  · rcases st.cursor e with e | ⟨root, e, -⟩
    · exact .inl (.inl (.inr ⟨mp, e, rfl⟩))
    · exact .inr ⟨root, mp, e, rfl⟩
  · rcases (threads B).held_next h with h | h
    · exact .inl (.inr h)
    · cases o with
      | acquire l =>
        cases h
        exact .inl (.inl (req.2 fs rfl))
      | _ => cases h

/-- A filesystem gets into the table by the `mount` that created it. -/
lemma inTable_after (st : o.Sem B s r s') (req : g.Req strict o) (h : s'.InTable fs) :
    s.InTable fs ∨ (g.made = some fs ∧ (Hand.next o r g).made = none) := by
  obtain ⟨root, mp, e, rfl⟩ := h
  rw [st.tables.mounts] at e
  cases o with
  | emplaceMount mp' =>
    cases r with
    | false => exact .inl ⟨root, mp, e, rfl⟩
    | true =>
      rw [Op.mountsAfter, if_pos rfl, Function.update_apply] at e
      split at e
      · cases e
        exact .inr ⟨req.2, rfl⟩
      · exact .inl ⟨root, mp, e, rfl⟩
  | eraseMount root' =>
    rw [Op.mountsAfter, Function.update_apply] at e
    split at e
    · cases e
    · exact .inl ⟨root, mp, e, rfl⟩
  | clearMounts => cases e
  | _ => exact .inl ⟨root, mp, e, rfl⟩

/-- What `create_filesystem` makes is new. -/
lemma made_next (st : o.Sem B s r s') (h : (Hand.next o r g).made = some fs) :
    g.made = some fs ∨ (fs = s.nextFs ∧ s.nextFs < s'.nextFs) := by
  cases o with
  | create factory disk =>
    obtain ⟨s₁, e, rfl | ⟨⟨⟩, -⟩⟩ := st
    cases e
    cases h
    exact .inr ⟨rfl, Nat.lt_succ_self _⟩
  | release l =>
    cases l with
    | vfs => cases h
    | _ => exact .inl h
  | emplaceMount mp =>
    cases r with
    | true => cases h
    | false => exact .inl h
  | _ => exact .inl h

end Operations

variable {Tid σ : Type}

/-- Somebody can get to the filesystem. -/
def Seen (c : Process Tid σ) (fs : FsId) : Prop :=
  c.shared.InTable fs ∨ ∃ t, (c.loc t).Known fs

/-- The invariant behind the exclusion: a filesystem that `mount` has created is at hand for this
call only. -/
structure Separate (c : Process Tid σ) : Prop where
  bound {fs} : Seen c fs → fs < c.shared.nextFs
  made {t fs} : (c.loc t).made = some fs → fs < c.shared.nextFs ∧ ¬ Seen c fs
  apart {t t' fs} : t' ≠ t → (c.loc t).made = some fs → (c.loc t').made ≠ some fs

/-- A method of a mounted filesystem runs under the lock of its mount point, and no two methods of a
filesystem overlap. -/
structure MethodsLocked (c : Process Tid σ) : Prop where
  held {t fs} : (c.loc t).inside = some fs → c.shared.InTable fs → .mount fs ∈ (c.loc t).held
  apart {t t' fs} : t' ≠ t → (c.loc t).inside = some fs → (c.loc t').inside ≠ some fs

/-- The loop of `umount_all` finds no mount point. -/
def FindsNone (c : Process Tid σ) (m : Move Tid Op Op.Res) : Prop :=
  match m.op with
  | .umountNext _ => c.shared.mounts.entries = []
  | _ => True

instance (c : Process Tid σ) (m : Move Tid Op Op.Res) : Decidable (FindsNone c m) := by
  unfold FindsNone
  split <;> infer_instance

section Runs
variable [DecidableEq Tid] {B : Backend σ} {s : Pimpl σ} {calls : Tid → List VfsCall}
  {c c' : Process Tid σ} {m : Move Tid Op Op.Res}

/-- A lookup that finds nothing is possible. -/
lemma FindsNone.poss (h : FindsNone c m) (st : System.Step (threads B) c m c') :
    m.op.Poss true m.res := by
  have sem : m.op.Sem B c.shared m.res c'.shared := st.sem
  obtain ⟨t, o, r⟩ := m
  cases o with
  | umountNext k =>
    obtain ⟨s₁, e, -⟩ := sem
    cases e
    have h : c.shared.mounts.entries = [] := h
    intro _
    rw [h]
    rfl
  | _ => trivial

/-- A filesystem that is seen was seen, or has just been handed over. -/
lemma seen_step (st : System.Step (threads B) c m c')
    (dc : System.Disciplined (discipline true) c) {fs : FsId} (h : Seen c' fs) :
    Seen c fs ∨ ((c.loc m.thread).made = some fs ∧ (c'.loc m.thread).made = none) := by
  have req : (c.loc m.thread).Req true m.op := st.req dc
  rcases h with h | ⟨t, h⟩
  · rw [st.loc_self]
    exact (inTable_after st.sem req h).imp_left .inl
  · rcases st.loc_elim (P := fun g => g.Known fs) h with ⟨-, old⟩ | ⟨rfl, new⟩
    · exact .inl (.inr ⟨t, old⟩)
    · rcases known_next st.sem req new with old | there
      · exact .inl (.inr ⟨_, old⟩)
      · exact .inl (.inl there)

/-- A filesystem that is being made was, or has the next number. -/
lemma made_step (st : System.Step (threads B) c m c') {t : Tid} {fs : FsId}
    (h : (c'.loc t).made = some fs) :
    (c.loc t).made = some fs ∨
      (t = m.thread ∧ fs = c.shared.nextFs ∧ c.shared.nextFs < c'.shared.nextFs) := by
  rcases st.loc_elim (P := fun g => g.made = some fs) h with ⟨-, old⟩ | ⟨rfl, new⟩
  · exact .inl old
  · exact (made_next st.sem new).imp_right fun h => ⟨rfl, h⟩

/-- A filesystem that is being made stays the maker's own. -/
lemma Separate.step (sep : Separate c) (st : System.Step (threads B) c m c')
    (dc : System.Disciplined (discipline true) c) : Separate c' := by
  have mono : c.shared.nextFs ≤ c'.shared.nextFs :=
    (Op.Sem.tables (B := B) st.sem).nextFs
  constructor
  case bound =>
    intro fs h
    rcases seen_step st dc h with h | ⟨h, -⟩
    · exact (sep.bound h).trans_le mono
    · exact (sep.made h).1.trans_le mono
  case made =>
    intro t fs h
    rcases made_step st h with old | ⟨rfl, rfl, lt⟩
    · refine ⟨(sep.made old).1.trans_le mono, fun seen => ?_⟩
      rcases seen_step st dc seen with seen | ⟨made, gone⟩
      · exact (sep.made old).2 seen
      · -- the mover puts what it made into the table, and has it no more
        cases ht : decide (t = m.thread) with
        | true =>
          obtain rfl := of_decide_eq_true ht
          exact nomatch gone.symm.trans h
        | false => exact sep.apart (of_decide_eq_false ht) made old
    · refine ⟨lt, fun seen => ?_⟩
      rcases seen_step st dc seen with seen | ⟨made, -⟩
      · exact (sep.bound seen).false
      · exact (sep.made made).1.false
  case apart =>
    intro t t' fs ne h h'
    rcases made_step st h with old | ⟨rfl, rfl, -⟩
    · rcases made_step st h' with old' | ⟨rfl, rfl, -⟩
      · exact sep.apart ne old old'
      · exact (sep.made old).1.false
    · rcases made_step st h' with old' | ⟨rfl, -, -⟩
      · exact (sep.made old').1.false
      · exact ne rfl

/-- The invariant of the runs in which `umount_all` finds no mount point. -/
structure Locked (c : Process Tid σ) : Prop where
  disciplined : System.Disciplined (discipline true) c
  covered t : (c.loc t).Covered
  separate : Separate c

omit [DecidableEq Tid] in
/-- Nothing is in hand at first. -/
lemma Locked.start (h : Pimpl.Reachable B s) : Locked (start s calls) where
  disciplined := start_disciplined
  covered _ := nofun
  separate := by
    refine ⟨?_, nofun, nofun⟩
    rintro fs (⟨root, mp, e, rfl⟩ | ⟨t, (⟨mp, e, -⟩ | ⟨mp, e, -⟩) | held⟩)
    · exact (Pimpl.MountsWf.reachable h).bound e
    · cases e
    · cases e
    · cases held

/-- Every step keeps the locks. -/
lemma Locked.step (lk : Locked c) (st : System.Step (threads B) c m c') (none : FindsNone c m) :
    Locked c' where
  disciplined := lk.disciplined.step rfl (none.poss st) st
  covered t := by
    cases ht : decide (t = m.thread) with
    | true =>
      obtain rfl := of_decide_eq_true ht
      rw [st.loc_self]
      exact (lk.covered m.thread).next (st.req lk.disciplined) m.res
    | false =>
      rw [st.loc_other (of_decide_eq_false ht)]
      exact lk.covered t
  separate := lk.separate.step st lk.disciplined

omit [DecidableEq Tid] in
/-- Methods are called under their lock. -/
lemma Locked.methodsLocked (lk : Locked c) (ex : (threads B).Exclusive c) : MethodsLocked c := by
  constructor
  case held =>
    intro t fs inside there
    rcases lk.covered t fs inside with held | made
    · exact held
    · exact absurd (.inl there) (lk.separate.made made).2
  case apart =>
    intro t t' fs ne inside inside'
    rcases lk.covered t fs inside with held | made
    · rcases lk.covered t' fs inside' with held' | made'
      · exact ex t t' _ ne held held'
      · exact (lk.separate.made made').2 (.inr ⟨t, .inr held⟩)
    · rcases lk.covered t' fs inside' with held' | made'
      · exact (lk.separate.made made).2 (.inr ⟨t', .inr held'⟩)
      · exact lk.separate.apart ne made made'

/-- In a run in which every `umount_all` finds no mount point, methods run under the lock of their
mount point and do not overlap. -/
theorem methodsLocked_runs (h : Pimpl.Reachable B s)
    (run : Runs (System.Step (threads B)) FindsNone (start s calls) c) : MethodsLocked c := by
  have lk : Locked c := by
    apply run.invariant
    · exact fun lk none st => lk.step st none
    · exact .start h
  have ex : (threads B).Exclusive c := System.Exclusive.run run start_exclusive
  exact lk.methodsLocked ex

end Runs

/-- `read(3)` is in a method of `/volume1`, and `close(3)` waits for the lock. -/
theorem methodsLocked_readAndClose :
    ∃ c, Runs (System.Step (threads .accepting)) FindsNone (start Pimpl.openFile readAndClose) c ∧
      (c.loc true).inside = some 1 ∧ .vfs ∈ (c.loc false).held ∧ MethodsLocked c := by
  obtain ⟨c, run, h⟩ := runs_follow (B := .accepting) (c := start Pimpl.openFile readAndClose)
    FindsNone (fun c => (c.loc true).inside = some 1 ∧ .vfs ∈ (c.loc false).held)
    (List.replicate 6 true ++ List.replicate 6 false) (by decide +kernel)
  exact ⟨c, run, h.1, h.2, methodsLocked_runs Pimpl.reachable_openFile run⟩

/-- One thread calls `stat`, another unmounts everything. -/
def statAndUmountAll : Bool → List VfsCall
  | true => [.op (.path .stat "/volume1/f".toList)]
  | false => [.op .umountAll]

/-- `stat` runs under the lock of `/volume1`, and so `unmount` runs without it. -/
theorem not_methodsLocked_statAndUmountAll :
    ∃ c, Pimpl.Reachable .accepting PathCall.twoVolumes ∧
      Runs (System.Step (threads .accepting)) (fun _ _ => True)
        (start PathCall.twoVolumes statAndUmountAll) c ∧ ¬ MethodsLocked c := by
  obtain ⟨c, run, h⟩ := runs_follow (B := .accepting)
    (c := start PathCall.twoVolumes statAndUmountAll) (fun _ _ => True)
    (fun c => (c.loc true).inside = some 1 ∧ (c.loc false).inside = some 1)
    (List.replicate 5 false ++ List.replicate 3 true ++ List.replicate 1 false)
    (by decide +kernel)
  exact ⟨c, PathCall.reachable_twoVolumes, run, fun ml => ml.apart Bool.false_ne_true h.1 h.2⟩

end Evfs
