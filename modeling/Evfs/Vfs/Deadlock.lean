import Evfs.Vfs.Locking
import Evfs.Vfs.Unlink

/-!
# No deadlock

Locks are acquired in the order of their ranks, the mutex of the object being the one that may be
acquired again. So no set of threads waits for one another, whatever they call and in whatever order
their steps come.
-/

namespace Evfs
open Lib

variable {Tid σ : Type} [DecidableEq Tid] (B : Backend σ) {s : Pimpl σ}
  {calls : Tid → List VfsCall} {c : Process Tid σ}

/-- No reachable interleaving of any calls has a deadlock. -/
theorem deadlock_free (run : Runs (System.Step (threads B)) (fun _ _ => True) (start s calls) c)
    (D : Tid → Prop) : ¬ (threads B).Deadlocked c D := by
  have dc : System.Disciplined (discipline false) c :=
    System.Disciplined.run rfl (fun _ _ => Op.poss_false _ _) run start_disciplined
  have ex : (threads B).Exclusive c := System.Exclusive.run run start_exclusive
  apply dc.no_deadlock Lock.rank ?_ ex D
  intro o g l req acq
  cases o with
  | acquire l' =>
    cases acq
    obtain ⟨⟨rfl, held⟩ | above, -⟩ := req
    · exact .inl ⟨rfl, held⟩
    · exact .inr above
  | _ => cases acq

/-- Two threads with the descriptor `3`: one reads, the other closes it. -/
def readAndClose : Bool → List VfsCall
  | true => [.op (.file (.read 1) 3)]
  | false => [.op (.file .close 3)]

/-- The reader holds the lock of the mount point, and `close` holds the mutex of the object. -/
theorem deadlock_free_readAndClose :
    ∃ c : Process Bool (FsId → Str), .mount 1 ∈ (c.loc true).held ∧ .vfs ∈ (c.loc false).held ∧
      ∀ D, ¬ (threads .accepting).Deadlocked c D := by
  obtain ⟨c, run, h⟩ := runs_follow (B := .accepting) (c := start Pimpl.openFile readAndClose)
    (fun _ _ => True) (fun c => .mount 1 ∈ (c.loc true).held ∧ .vfs ∈ (c.loc false).held)
    (List.replicate 5 true ++ List.replicate 6 false) (by decide +kernel)
  exact ⟨c, h.1, h.2, deadlock_free .accepting run⟩

end Evfs
