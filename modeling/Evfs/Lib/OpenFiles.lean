import Evfs.Lib.Bytes
import Mathlib.Logic.Function.Basic

/-!
# Open files

Files that hold bytes, and open files with a position in one of them. A file may be open any number of
times. `OpenFile.Serves` says what reading, writing, seeking and truncating come to. A write does not
start behind the end of a file; what a read there gives is left open, and so is how much of a write is
stored. `Files.Step` puts open files together with what opens and closes them.

Bytes that nobody writes over stay where they are (`Files.HoldsAt`) as long as nothing is made shorter.
-/

namespace Lib

/-- An open file: which one it is, what it may be used for, the position, and how long the file was
when that was looked at last. -/
structure OpenFile (ι : Type) where
  file : ι
  readable : Bool
  writable : Bool
  pos : Nat := 0
  seen : Nat := 0
  deriving DecidableEq

/-- What an offset counts from. -/
inductive Origin where
  | start
  | current
  | theEnd
  deriving DecidableEq

inductive Request where
  | read (len : Nat)
  | write (bytes : List UInt8)
  | seek (offset : Int) (origin : Option Origin)
  | truncate (size : Nat)
  deriving DecidableEq

inductive Answer where
  | read (bytes : List UInt8)
  | wrote (n : Nat)
  | moved (pos : Nat)
  | done
  | refused
  deriving DecidableEq

namespace OpenFile
variable {ι : Type}

def base (f : OpenFile ι) : Origin → Nat
  | .start => 0
  | .current => f.pos
  | .theEnd => f.seen

/-- The position that a seek is to, which is not behind the end unless the position is already. -/
def SeeksTo (f : OpenFile ι) (offset : Int) (o : Origin) (pos : Nat) : Prop :=
  f.base o + offset = pos ∧ (offset ≤ 0 ∨ pos ≤ f.seen)

/-- A request, its answer, and the open file and the data of the file before and after. -/
inductive Serves (readOnly : Bool) (f : OpenFile ι) (d : List UInt8) :
    Request → Answer → OpenFile ι → List UInt8 → Prop where
  | readNothing : f.readable = true → Serves readOnly f d (.read 0) (.read []) f d
  | read {len bytes} : f.readable = true → len ≠ 0 →
    (f.pos ≤ d.length → bytes = (d.drop f.pos).take len) →
    Serves readOnly f d (.read len) (.read bytes)
      { f with pos := f.pos + bytes.length, seen := d.length } d
  | unreadable {len} : f.readable = false → Serves readOnly f d (.read len) .refused f d
  | writeNothing : readOnly = false → f.writable = true →
    Serves readOnly f d (.write []) (.wrote 0) f d
  | write {bytes n} : readOnly = false → f.writable = true → bytes ≠ [] → n ≤ bytes.length →
    f.pos ≤ d.length → Serves readOnly f d (.write bytes) (.wrote n)
      { f with pos := f.pos + n, seen := max d.length (f.pos + n) }
      (Bytes.patch d f.pos (bytes.take n))
  | unwritable {bytes} : readOnly = true ∨ f.writable = false →
    Serves readOnly f d (.write bytes) .refused f d
  | seek {offset o pos} : f.SeeksTo offset o pos →
    Serves readOnly f d (.seek offset (some o)) (.moved pos) { f with pos } d
  | unseekable {offset origin} : (∀ o ∈ origin, ∀ pos, ¬ f.SeeksTo offset o pos) →
    Serves readOnly f d (.seek offset origin) .refused f d
  | cut {size} : readOnly = false → size < d.length →
    Serves readOnly f d (.truncate size) .done
      { f with pos := min f.pos size, seen := size } (d.take size)
  | uncut {size} : readOnly = false → d.length ≤ size →
    Serves readOnly f d (.truncate size) .done { f with seen := d.length } d
  | uncuttable {size} : readOnly = true → Serves readOnly f d (.truncate size) .refused f d

end OpenFile

/-- Files by number, and open files by descriptor. -/
@[ext] structure Files (ι κ : Type) where
  readOnly : Bool
  data : ι → List UInt8
  opened : κ → Option (OpenFile ι)

/-- How a file is opened: what for, whether it is cut to nothing, and whether the position is at the
end. -/
structure OpenMode where
  readable : Bool
  writable : Bool
  cut : Bool
  atEnd : Bool
  deriving DecidableEq

/-- What happens to files. -/
inductive FileEvent (ι κ : Type) where
  | open (k : κ) (i : ι) (mode : OpenMode)
  | close (k : κ)
  | serve (k : κ) (req : Request) (ans : Answer)

namespace Files
variable {ι κ : Type} [DecidableEq ι] [DecidableEq κ]

/-- What the files hold once one was opened. -/
def emptied (F : Files ι κ) (i : ι) (mode : OpenMode) : ι → List UInt8 :=
  if mode.cut then Function.update F.data i [] else F.data

/-- An open file as it is at first. -/
def start (F : Files ι κ) (i : ι) (mode : OpenMode) : OpenFile ι where
  file := i
  readable := mode.readable
  writable := mode.writable
  pos := if mode.atEnd then (F.emptied i mode i).length else 0
  seen := (F.emptied i mode i).length

inductive Step : Files ι κ → FileEvent ι κ → Files ι κ → Prop where
  | open {F k i mode} : F.opened k = none → Step F (.open k i mode)
    { F with
      data := F.emptied i mode
      opened := Function.update F.opened k (some (F.start i mode)) }
  | close {F k} : Step F (.close k) { F with opened := Function.update F.opened k none }
  | serve {F k f req ans f' d} : F.opened k = some f →
    f.Serves F.readOnly (F.data f.file) req ans f' d →
    Step F (.serve k req ans)
      { F with
        data := Function.update F.data f.file d
        opened := Function.update F.opened k (some f') }
  | absent {F k req} : F.opened k = none → Step F (.serve k req .refused) F

/-! ### What files hold -/

/-- A file holds bytes from an offset on. -/
def HoldsAt (F : Files ι κ) (i : ι) (offs : Nat) (bytes : List UInt8) : Prop :=
  ∀ j < bytes.length, (F.data i)[offs + j]? = bytes[j]?

/-- The file is not made shorter, and no write touches the `n` bytes at an offset. -/
def Spares (F : Files ι κ) (i : ι) (offs n : Nat) : FileEvent ι κ → Prop
  | .open _ j mode => mode.cut = true → j ≠ i
  | .serve k (.write bytes) _ => ∀ f ∈ F.opened k, f.file = i →
    f.pos + bytes.length ≤ offs ∨ offs + n ≤ f.pos
  | .serve k (.truncate size) _ => ∀ f ∈ F.opened k, f.file = i → (F.data i).length ≤ size
  | _ => True

end Files

namespace OpenFile
variable {ι : Type} {readOnly : Bool} {f f' : OpenFile ι} {d d' bytes : List UInt8} {req : Request}
  {ans : Answer} {offs j : Nat}

/-- A byte that is not written over stays. -/
lemma Serves.kept (sv : f.Serves readOnly d req ans f' d')
    (cut : ∀ {size}, req = .truncate size → d.length ≤ size)
    (spared : ∀ {bytes}, req = .write bytes → j < f.pos ∨ f.pos + bytes.length ≤ j) :
    d'[j]? = d[j]? := by
  cases sv with
  | @write bytes n _ _ _ hn hp =>
    have h := spared rfl
    rw [Bytes.getElem?_patch hp, if_neg]
    rw [List.length_take_of_le hn]
    omega
  | cut _ h => exact absurd (cut rfl) (by omega)
  | _ => rfl

/-- What was stored is there. -/
lemma Serves.stored {n : Nat} (sv : f.Serves readOnly d (.write bytes) (.wrote n) f' d')
    (hj : j < (bytes.take n).length) :
    d'[f.pos + j]? = (bytes.take n)[j]? := by
  cases sv with
  | writeNothing => cases hj
  | write _ _ _ _ hp => rw [Bytes.getElem?_patch hp, if_pos (by omega), Nat.add_sub_cancel_left]

end OpenFile

namespace Files
variable {ι κ : Type} {F F' : Files ι κ} {i : ι} {k : κ} {f : OpenFile ι} {offs n : Nat}
  {bytes : List UInt8} {req : Request} {ans : Answer} {ev : FileEvent ι κ}

/-- A truncation that spares the bytes shortens nothing. -/
lemma Spares.uncut (sp : F.Spares i offs n (.serve k req ans)) (hf : F.opened k = some f)
    (hi : f.file = i) {size : Nat} (e : req = .truncate size) : (F.data i).length ≤ size := by
  subst e
  exact sp f hf hi

/-- A write that spares them is before or behind them. -/
lemma Spares.apart (sp : F.Spares i offs n (.serve k req ans)) (hf : F.opened k = some f)
    (hi : f.file = i) (e : req = .write bytes) :
    f.pos + bytes.length ≤ offs ∨ offs + n ≤ f.pos := by
  subst e
  exact sp f hf hi

/-- A position among the bytes that a file holds is inside of the file. -/
lemma HoldsAt.pos_le {pos : Nat} (h : F.HoldsAt i offs bytes) (hb : 0 < bytes.length)
    (hi : pos < offs + bytes.length) : pos ≤ (F.data i).length := by
  have e := h (bytes.length - 1) (by omega)
  rw [List.getElem?_eq_getElem (by omega : bytes.length - 1 < bytes.length)] at e
  have := (List.getElem?_eq_some_iff.mp e).1
  omega

variable [DecidableEq ι]

/-- Opening a file that is not cut leaves what it holds. -/
lemma emptied_of_ne {j : ι} {mode : OpenMode} (h : mode.cut = true → j ≠ i) :
    F.emptied j mode i = F.data i := by
  unfold emptied
  split
  · rename_i hc
    exact Function.update_of_ne (h hc).symm _ _
  · rfl

variable [DecidableEq κ]

/-- Bytes that are spared stay where they are. -/
lemma Step.holdsAt (st : Step F ev F') (h : F.HoldsAt i offs bytes)
    (sp : F.Spares i offs bytes.length ev) : F'.HoldsAt i offs bytes := by
  intro j hj
  rw [← h j hj]
  cases st with
  | «open» => simp only [emptied_of_ne sp]
  | close => rfl
  | @serve k f req ans f₁ d hf sv =>
    by_cases hi : f.file = i
    · subst hi
      simp only [Function.update_self]
      refine sv.kept (fun e => Spares.uncut sp hf rfl e) fun e => ?_
      have := Spares.apart sp hf rfl e
      omega
    · simp only [Function.update_of_ne (Ne.symm hi)]
  | absent => rfl

/-- What a read is answered where the file holds certain bytes. -/
lemma Step.reads {len : Nat} (st : Step F (.serve k (.read len) ans) F')
    (hf : F.opened k = some f) (hr : f.readable = true)
    (h : F.HoldsAt f.file offs bytes) (lo : offs ≤ f.pos) (hi : f.pos + len ≤ offs + bytes.length) :
    ans = .read ((bytes.drop (f.pos - offs)).take len) := by
  cases st with
  | serve hf' sv =>
    cases hf.symm.trans hf'
    cases sv with
    | readNothing => rfl
    | read _ h0 hb =>
      rw [hb (h.pos_le (by omega) (by omega))]
      congr 1
      apply List.ext_getElem?
      intro j
      rw [List.getElem?_take, List.getElem?_take]
      split
      · rename_i hj
        rw [List.getElem?_drop, List.getElem?_drop, ← h _ (by omega)]
        congr 1
        omega
      · rfl
    | unreadable hr' =>
      rw [hr] at hr'
      cases hr'
  | absent hf' =>
    rw [hf] at hf'
    cases hf'

end Files
end Lib
