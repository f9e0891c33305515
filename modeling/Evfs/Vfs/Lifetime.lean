import Evfs.Vfs.Deadlock
import Evfs.Vfs.OpEffects

/-!
# What a call has at hand, and the other calls

`invoke_fops` looks the handle up under the mutex of the object and uses it without, and the calls on
paths look their mount point up without it. So `close`, `umount` and `umount_all` can erase what
another call is about to use. They do so in one operation, and everything else leaves what a call has
at hand in the tables.
-/

namespace Evfs
open Lib

/-- The file handle that an operation uses. -/
def Op.handle : Op → Option FileHandle
  | enter _ (.file _ handle) => some handle
  | leave _ (.file _ handle) => some handle
  | _ => none

/-- The filesystem, or the mutex of its mount point, that an operation uses. -/
def Op.filesystem : Op → Option FsId
  | acquire (.mount fs) => some fs
  | release (.mount fs) => some fs
  | enter fs _ => some fs
  | leave fs _ => some fs
  | _ => none

/-- The operation erases nothing of what a call has at hand. -/
def Op.Spares : Op → Hand → Prop
  | remove fd, g => ∀ f ∈ g.file, f.1 ≠ fd
  | eraseMount root, g => (∀ mp ∈ g.mount, mp.root ≠ root) ∧ ∀ mp ∈ g.cursor, mp.root ≠ root
  | clearMounts, g => g.mount = none ∧ g.cursor = none
  | _, _ => True

instance (o : Op) (g : Hand) : Decidable (o.Spares g) := by
  cases o <;> unfold Op.Spares <;> infer_instance

/-- What a call has at hand is in the tables. -/
structure Hand.Owned {σ : Type} (g : Hand) (s : Pimpl σ) : Prop where
  file {fd fil} : g.file = some (fd, fil) → s.fileOf fd = some fil
  mount {mp} : g.mount = some mp → s.mountOf mp.root = some mp
  cursor {mp} : g.cursor = some mp → s.mountOf mp.root = some mp

variable {Tid σ : Type}

/-- What the calls have at hand is in the tables, and so is what they use next. A filesystem that
`mount` has created is in no table yet. -/
structure Intact (c : Process Tid σ) : Prop where
  hand t : (c.loc t).Owned c.shared
  handle {t o k fil} : c.prog t = .op o k → o.handle = some fil → ∃ fd, c.shared.fileOf fd = some fil
  mountPoint {t o k fs} : c.prog t = .op o k → o.filesystem = some fs →
    (c.loc t).made = some fs ∨ ∃ mp, c.shared.mountOf mp.root = some mp ∧ mp.fs = fs

/-- The step erases nothing that another call has at hand. -/
def SparesOthers (c : Process Tid σ) (m : Move Tid Op Op.Res) : Prop :=
  ∀ t, t ≠ m.thread → m.op.Spares (c.loc t)

instance [DecidableEq Tid] [Fintype Tid] (c : Process Tid σ) (m : Move Tid Op Op.Res) :
    Decidable (SparesOthers c m) :=
  inferInstanceAs (Decidable (∀ t, t ≠ m.thread → m.op.Spares (c.loc t)))

section Tables
variable {B : Backend σ} {s s' : Pimpl σ} {o : Op} {r : o.Res} {g : Hand}

/-- A mount point is kept under its own root. -/
def RootKeyed (s : Pimpl σ) : Prop := ∀ root mp, s.mountOf root = some mp → mp.root = root

/-- Mount points stay under their own roots. -/
lemma RootKeyed.sem (key : RootKeyed s) (st : o.Sem B s r s') : RootKeyed s' := by
  intro root mp e
  rw [st.tables.mounts] at e
  cases o with
  | emplaceMount mp' =>
    rw [Op.mountsAfter] at e
    split at e
    · rw [Function.update_apply] at e
      split at e
      · rename_i h
        cases e
        exact h.symm
      · exact key root mp e
    · exact key root mp e
  | eraseMount root' =>
    rw [Op.mountsAfter, Function.update_apply] at e
    split at e
    · cases e
    · exact key root mp e
  | clearMounts => cases e
  | _ => exact key root mp e

/-- A file stays open unless it is removed. -/
lemma fileOf_keep {fd : Int} {fil : FileHandle} (st : o.Sem B s r s')
    (keep : ∀ fd', o = .remove fd' → fd' ≠ fd) (e : s.fileOf fd = some fil) :
    s'.fileOf fd = some fil := by
  rw [st.tables.files]
  cases o with
  | insert path handle =>
    rw [Op.filesAfter]
    split
    · exact e
    · rename_i free
      have ne : fd ≠ r := by
        rintro rfl
        exact free (e ▸ rfl)
      rw [Function.update_of_ne ne, e]
  | remove fd' => rw [Op.filesAfter, Function.update_of_ne (keep fd' rfl).symm, e]
  | _ => exact e

/-- A mount point stays unless it is erased. -/
lemma mountOf_keep {root : Str} {mp : MountPoint} (st : o.Sem B s r s')
    (keep : ∀ root', o = .eraseMount root' → root' ≠ root) (all : o ≠ .clearMounts)
    (e : s.mountOf root = some mp) : s'.mountOf root = some mp := by
  rw [st.tables.mounts]
  cases o with
  | emplaceMount mp' =>
    rw [Op.mountsAfter]
    split
    · rename_i inserted
      have ne : root ≠ mp'.root := by
        rintro rfl
        exact nomatch e.symm.trans (st.emplaced inserted)
      rw [Function.update_of_ne ne, e]
    · exact e
  | eraseMount root' => rw [Op.mountsAfter, Function.update_of_ne (keep root' rfl).symm, e]
  | clearMounts => exact absurd rfl all
  | _ => exact e

/-- What the thread that performs an operation has at hand. -/
lemma Hand.Owned.own {strict : Bool} (own : g.Owned s) (key : RootKeyed s)
    (req : g.Req strict o) (st : o.Sem B s r s') : (Hand.next o r g).Owned s' := by
  constructor
  case file =>
    intro fd fil e
    rcases st.file e with h | ⟨h, same⟩
    · refine fileOf_keep st ?_ (own.file h)
      rintro fd' rfl
      exact absurd h (by rw [show g.file = none from req]; nofun)
    · exact same ▸ h
  case mount =>
    intro mp e
    rcases st.mount e with h | ⟨root, h, same⟩
    · refine mountOf_keep st ?_ ?_ (own.mount h)
      · rintro root rfl
        exact absurd h (by rw [show g.mount = none from req]; nofun)
      · rintro rfl
        exact absurd h (by rw [show g.mount = none from req]; nofun)
    · rw [same, key root mp h, h]
  case cursor =>
    intro mp e
    rcases st.cursor e with h | ⟨root, h, same⟩
    · refine mountOf_keep st ?_ ?_ (own.cursor h)
      · rintro root rfl
        cases e
      · rintro rfl
        cases e
    · rw [same, key root mp h, h]

/-- What another thread has at hand. -/
lemma Hand.Owned.other (own : g.Owned s) (spares : o.Spares g) (st : o.Sem B s r s') :
    g.Owned s' := by
  constructor
  case file =>
    intro fd fil e
    refine fileOf_keep st ?_ (own.file e)
    rintro fd' rfl rfl
    exact spares _ e rfl
  case mount =>
    intro mp e
    refine mountOf_keep st ?_ ?_ (own.mount e)
    · rintro root rfl
      exact (spares.1 mp e).symm
    · rintro rfl
      exact nomatch e.symm.trans spares.1
  case cursor =>
    intro mp e
    refine mountOf_keep st ?_ ?_ (own.cursor e)
    · rintro root rfl
      exact (spares.2 mp e).symm
    · rintro rfl
      exact nomatch e.symm.trans spares.2

/-- Only an operation that spares it leaves it in the tables. -/
lemma Hand.Owned.spared (own : g.Owned s') (st : o.Sem B s r s') : o.Spares g := by
  have files := st.tables.files
  have mounts := st.tables.mounts
  cases o with
  | remove fd =>
    rintro ⟨_, fil⟩ e rfl
    have h := own.file e
    rw [files, Op.filesAfter, Function.update_self] at h
    cases h
  | eraseMount root =>
    have gone : ∀ mp, s'.mountOf mp.root = some mp → mp.root ≠ root := by
      rintro mp h rfl
      rw [mounts, Op.mountsAfter, Function.update_self] at h
      cases h
    exact ⟨fun mp e => gone mp (own.mount e), fun mp e => gone mp (own.cursor e)⟩
  | clearMounts =>
    constructor
    · refine Option.eq_none_iff_forall_ne_some.mpr fun mp e => ?_
      exact nomatch (own.mount e).symm.trans (congrFun mounts mp.root)
    · refine Option.eq_none_iff_forall_ne_some.mpr fun mp e => ?_
      exact nomatch (own.cursor e).symm.trans (congrFun mounts mp.root)
  | _ => trivial

end Tables

/-- What a thread uses next is what it has at hand. -/
lemma Intact.of_hand {c : Process Tid σ} (dc : System.Disciplined (discipline false) c)
    (own : ∀ t, (c.loc t).Owned c.shared) : Intact c := by
  have req : ∀ {t o k}, c.prog t = .op o k → (c.loc t).Req false o := by
    intro t o k e
    have h := dc t
    rw [e] at h
    exact h.1
  -- a mount point at hand is one of the table, by what the thread owns
  have refers : ∀ {t fs}, (c.loc t).Refers fs →
      ∃ mp, c.shared.mountOf mp.root = some mp ∧ mp.fs = fs := by
    rintro t fs (⟨mp, h, e⟩ | ⟨mp, h, e⟩)
    · exact ⟨mp, (own t).mount h, e⟩
    · exact ⟨mp, (own t).cursor h, e⟩
  constructor
  case hand => exact own
  case handle =>
    intro t o k fil e h
    have has : ∀ {op}, (c.loc t).HasHandle (.file op fil) → ∃ fd, c.shared.fileOf fd = some fil := by
      intro op hh
      obtain ⟨fd, hf⟩ := hh op fil rfl
      exact ⟨fd, (own t).file hf⟩
    cases o with
    | enter fs call =>
      cases call with
      | file op handle => cases h; exact has (req e).2.1
      | _ => cases h
    | leave fs call =>
      cases call with
      | file op handle => cases h; exact has (req e).2.1
      | _ => cases h
    | _ => cases h
  case mountPoint =>
    intro t o k fs e h
    cases o with
    | acquire l =>
      cases l with
      | mount fs' => cases h; exact .inr (refers ((req e).2 _ rfl))
      | _ => cases h
    | release l =>
      cases l with
      | mount fs' => cases h; exact .inr (refers (req e).2)
      | _ => cases h
    | enter fs' call => cases h; exact ((req e).2.2.imp_left fun h => refers h.1).symm
    | leave fs' call => cases h; exact ((req e).2.2.imp_left refers).symm
    | _ => cases h

section Runs
variable [DecidableEq Tid] {B : Backend σ} {s : Pimpl σ} {calls : Tid → List VfsCall}
  {c c' : Process Tid σ} {m : Move Tid Op Op.Res}

/-- The invariant of the runs whose steps spare the other calls. -/
structure Tended (c : Process Tid σ) : Prop where
  disciplined : System.Disciplined (discipline false) c
  rootKeyed : RootKeyed c.shared
  hand t : (c.loc t).Owned c.shared

omit [DecidableEq Tid] in
/-- Nothing is in hand at first. -/
lemma Tended.start (h : Pimpl.Reachable B s) : Tended (start s calls) where
  disciplined := start_disciplined
  rootKeyed _ _ e := (Pimpl.MountsWf.reachable h).root e
  hand _ := ⟨nofun, nofun, nofun⟩

/-- Every step that spares the others keeps what they hold. -/
lemma Tended.step (td : Tended c) (st : System.Step (threads B) c m c')
    (spares : SparesOthers c m) : Tended c' where
  disciplined := td.disciplined.step rfl (Op.poss_false _ _) st
  rootKeyed := td.rootKeyed.sem st.sem
  hand t := by
    cases ht : decide (t = m.thread) with
    | true =>
      obtain rfl := of_decide_eq_true ht
      rw [st.loc_self]
      exact (td.hand m.thread).own td.rootKeyed (st.req td.disciplined) st.sem
    | false =>
      have ne := of_decide_eq_false ht
      rw [st.loc_other ne]
      exact (td.hand t).other (spares t ne) st.sem

/-- In a run whose steps spare what other calls have at hand, it is in the tables all the time; a step
that does not spare it takes it out of them. -/
theorem intact_runs (h : Pimpl.Reachable B s)
    (run : Runs (System.Step (threads B)) SparesOthers (start s calls) c) :
    Intact c ∧ ∀ m c', System.Step (threads B) c m c' → (Intact c' ↔ SparesOthers c m) := by
  have td : Tended c := by
    apply run.invariant
    · exact fun td ok st => td.step st ok
    · exact .start h
  refine ⟨.of_hand td.disciplined td.hand, fun m c' st => ⟨fun int t ne => ?_, fun spares => ?_⟩⟩
  · have own := int.hand t
    rw [st.loc_other ne] at own
    exact own.spared st.sem
  · have td' := td.step st spares
    exact .of_hand td'.disciplined td'.hand

/-- `read(3)` has looked its handle up and holds the lock of the mount point by now; `close(3)` has
erased the handle in between. -/
theorem not_intact_readAndClose :
    ∃ c, Pimpl.Reachable .accepting Pimpl.openFile ∧
      Runs (System.Step (threads .accepting)) (fun _ _ => True)
        (start Pimpl.openFile readAndClose) c ∧ .mount 1 ∈ (c.loc true).held ∧ ¬ Intact c := by
  obtain ⟨c, run, h⟩ := runs_follow (B := .accepting) (c := start Pimpl.openFile readAndClose)
    (fun _ _ => True) (fun c => (c.loc true).file.map Prod.fst = some 3 ∧
      c.shared.fileOf 3 = none ∧ .mount 1 ∈ (c.loc true).held)
    (List.replicate 3 true ++ List.replicate 13 false ++ List.replicate 2 true) (by decide +kernel)
  obtain ⟨file, gone, held⟩ := h
  refine ⟨c, Pimpl.reachable_openFile, run, held, fun int => ?_⟩
  obtain ⟨⟨fd, fil⟩, e, rfl⟩ := Option.map_eq_some_iff.mp file
  exact nomatch gone.symm.trans ((int.hand true).file e)

end Runs

/-- `close(3)` waits until `read(3)` is done with the handle, and erases it then. -/
theorem intact_runs_readAndClose :
    ∃ c, Runs (System.Step (threads .accepting)) SparesOthers
        (start Pimpl.openFile readAndClose) c ∧ c.shared.fileOf 3 = none ∧ Intact c := by
  obtain ⟨c, run, gone⟩ := runs_follow (B := .accepting) (c := start Pimpl.openFile readAndClose)
    SparesOthers (fun c => c.shared.fileOf 3 = none)
    (List.replicate 9 true ++ List.replicate 13 false) (by decide +kernel)
  exact ⟨c, run, gone, (intact_runs Pimpl.reachable_openFile run).1⟩

end Evfs
