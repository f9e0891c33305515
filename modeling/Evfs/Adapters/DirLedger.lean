import Evfs.Adapters.VolumeTree
import Evfs.Lwext4.Renaming
import Evfs.Vfs.Handles

/-!
# Streams that are opened and closed

`Ledger` says which streams are open: `opendir` opens one, `closedir` closes one that is open, and
`readdir` moves one. Whatever these functions answer, a directory or a stack of them owns its streams
and no others: what an iterator gives up is closed when no copy of it is left, on an error too, and
nothing else is read or closed. A program may have any number of iterators with copies (`Uses`). For
the system calls this is about the directory handles of `VirtualFS`, whatever else is done with it
(`handles_conserved`).
-/

namespace Evfs
namespace FsDir
open Lib
variable {ω : Type} {P : Posix ω}

/-- The function returns and then `Q` holds, unless it runs out of fuel. -/
def Ends {α : Type} (Q : α → Prop) : Except Halt α → Prop
  | .ok a => Q a
  | .error h => h = .outOfFuel

namespace Ends
variable {α β : Type} {Q : α → Prop} {x : Except Halt α}

/-- What holds of the result that there is. -/
lemma ok {a : α} (h : Ends Q x) (e : x = .ok a) : Q a := by
  rwa [e] at h

/-- The only way not to return. -/
lemma error {f : Halt} (h : Ends Q x) (e : x = .error f) : f = .outOfFuel := by
  rwa [e] at h

/-- A weaker fact of what is made of the result. -/
lemma map {f : α → β} {R : β → Prop} (h : Ends Q x) (imp : ∀ {a}, Q a → R (f a)) :
    Ends R (x.map f) := by
  cases x with
  | error f => exact h
  | ok a => exact imp h

end Ends

/-- These streams were opened and not closed yet, in some order. -/
structure Ledger (P : Posix ω) where
  Owns : List P.DIR → ω → Prop
  perm {ds ds' w} : ds.Perm ds' → Owns ds w → Owns ds' w
  opened {ds p d} {env env' : Env ω} : Owns ds env.world → P.opendir p env = (some d, env') →
    Owns (d :: ds) env'.world
  refused {ds p} {env env' : Env ω} : Owns ds env.world → P.opendir p env = (none, env') →
    env'.errno ≠ 0 ∧ Owns ds env'.world
  read {d ds} (env : Env ω) : Owns (d :: ds) env.world →
    ∃ e d' env', P.readdir d env = .ok (e, d', env') ∧ Owns (d' :: ds) env'.world
  closed {d ds} (env : Env ω) : Owns (d :: ds) env.world →
    ∃ env', P.closedir d env = .ok env' ∧ Owns ds env'.world
  symlinkStatus {ds} (p) (env : Env ω) : Owns ds env.world →
    Owns ds (P.symlinkStatus p env).2.world
  status {ds} (p) (env : Env ω) : Owns ds env.world → Owns ds (P.status p env).2.world
  remove {ds p} (env : Env ω) : Owns ds env.world →
    ∃ r env', P.remove p env = .ok (r, env') ∧ Owns ds env'.world

/-- The streams of directories. -/
def streams (dirs : List (Dir P)) : List P.DIR := dirs.map Dir.dirp

/-- The streams of a stack, which may be empty. -/
def stackStreams : Option (DirStack P) → List P.DIR
  | none => []
  | some st => streams st.dirs

/-- What there is still, referred to or given up. -/
def Left.there {α : Type} : Left α → Option α
  | keeps a => some a
  | gives a => a

namespace Ledger
variable {L : Ledger P} {ds : List P.DIR} {d : P.DIR} {dir : Dir P} {env env' : Env ω}
  {n m : Nat} {skip : Bool} {ec : ErrorCode}

/-! ### Directories -/

variable {st : DirStack P}

/-- What the functions of an iterator leave. -/
abbrev Owned (L : Ledger P) (ds : List P.DIR) {α : Type} (r : (Left (DirStack P) × α) × Env ω) :
    Prop :=
  L.Owns (stackStreams r.1.1.there ++ ds) r.2.world

end Ledger

/-! ### Programs with iterators -/

/-- What an iterator that is not at its end refers to. A stack on which nothing is left is kept as long
as there are copies of the iterator that emptied it. -/
inductive Content (P : Posix ω) where
  | dir (dir : Dir P)
  | stack (st : DirStack P)
  | emptied

namespace Content

/-- The streams that are read through it. -/
def streams : Content P → List P.DIR
  | dir d => FsDir.streams [d]
  | stack st => FsDir.streams st.dirs
  | emptied => []

/-- The destructor. -/
def destroy : Content P → Env ω → Except Halt (Env ω)
  | dir d, env => d.destroy env
  | stack st, env => st.destroy env
  | emptied, env => .ok env

/-- What a function leaves of a directory. -/
def ofDir : Left (Dir P) → Left (Content P)
  | .keeps d => .keeps (dir d)
  | .gives d => .gives (d.map dir)

/-- What a function leaves of a stack. -/
def ofStack : Left (DirStack P) → Left (Content P)
  | .keeps st => .keeps (stack st)
  | .gives st => .gives (st.map stack)

/-- A call on an iterator and what it comes to. Nothing is on top of an emptied stack, which only
`disable_recursion_pending` does not mind. -/
inductive Call (n m : Nat) (env : Env ω) :
    Content P → Except Halt (Left (Content P) × Env ω) → Prop where
  | advance {d} : Call n m env (dir d) ((d.increment n env).map fun r => (ofDir r.1.1, r.2))
  | increment {st} : Call n m env (stack st)
    ((st.increment n env).map fun r => (ofStack r.1.1, r.2))
  | pop {st} : Call n m env (stack st) ((st.pop n env).map fun r => (ofStack r.1.1, r.2))
  | disableRecursionPending {st} : Call n m env (stack st)
    (.ok (.keeps (stack { st with pending := false }), env))
  | erase {st} : Call n m env (stack st) ((st.erase n m env).map fun r => (ofStack r.1.1, r.2))
  | onEmptied : Call n m env emptied (.error .emptyStack)
  | disableOnEmptied : Call n m env emptied (.ok (.keeps emptied, env))

end Content

/-- What a `shared_ptr` of an iterator points to, with the number of the further copies. Iterators at
their end point to nothing. -/
structure Shared (P : Posix ω) where
  content : Content P
  copies : Nat := 0

namespace Shared

/-- One of the copies lets go of what they share. -/
def release (c : Content P) (env : Env ω) : Nat → Except Halt (Option (Shared P) × Env ω)
  | 0 => (c.destroy env).map fun env => (none, env)
  | k + 1 => .ok (some ⟨c, k⟩, env)

/-- After a call on one of the copies. -/
def after (k : Nat) : Left (Content P) × Env ω → Except Halt (Option (Shared P) × Env ω)
  | (.keeps c, env) => .ok (some ⟨c, k⟩, env)
  | (.gives c, env) => release (c.getD .emptied) env k

/-- What can be done with one of the copies: a call, another copy, or its destructor. -/
inductive Call (n m : Nat) (env : Env ω) :
    Shared P → Except Halt (Option (Shared P) × Env ω) → Prop where
  | call {c k x} : c.Call n m env x → Call n m env ⟨c, k⟩ (x.bind (after k))
  | copy {c k} : Call n m env ⟨c, k⟩ (.ok (some ⟨c, k + 1⟩, env))
  | drop {c k} : Call n m env ⟨c, k⟩ (release c env k)

end Shared

namespace Ledger
variable {L : Ledger P} {n m k : Nat} {c : Content P} {before after mid : List (Shared P)}
  {it : Shared P} {env : Env ω} {ds : List P.DIR}

end Ledger

/-! ### On the system calls -/

section Syscalls
variable {σ : Type} {B : Backend σ} {s₀ s s' : Pimpl σ} {lib : Library (Pimpl σ)} {ds : List Dirstream}
  {own : List DirectoryHandle}

/-- What happens opens and closes no directory. -/
def KeepsDirs : Pimpl.Label → Prop
  | .op (.diropen _) _ => False
  | .op (.dir .dirclose _) _ => False
  | _ => True

variable (B) in
/-- Other things that are done with `VirtualFS`. No mount point in use is dropped. -/
abbrev Elsewhere : Pimpl σ → Pimpl σ → Prop :=
  Runs (Pimpl.Step B) fun s l => Pimpl.DropsUnused B s l ∧ KeepsDirs l

variable (B) in
/-- The library of the compiler opens and closes no directory either. -/
structure Library.Ordinary (lib : Library (Pimpl σ)) : Prop where
  symlinkStatus (p env) : Elsewhere B env.world (lib.symlinkStatus p env).2.world
  status (p env) : Elsewhere B env.world (lib.status p env).2.world
  remove (p env) : ∃ r env', lib.remove p env = .ok (r, env') ∧ Elsewhere B env.world env'.world

/-- The streams and the handles of others are the open directories. -/
structure Opened (B : Backend σ) (own : List DirectoryHandle) (ds : List Dirstream) (s : Pimpl σ) :
    Prop where
  keyed : Pimpl.Keyed s
  wf : Pimpl.MountsWf B s
  handles : s.dirHandles.Perm (ds.map Dirstream.dirh ++ own)

/-- Such a step leaves the open directories alone. -/
lemma KeepsDirs.dirHandles {l : Pimpl.Label} (k : KeepsDirs l) (st : Pimpl.Step B s l s') :
    s'.dirHandles = s.dirHandles := by
  cases st with
  | op _ e =>
    cases Pimpl.exec_effect e with
    | quiet q => exact q.dirHandles
    | factories => rfl
    | mounted m =>
      obtain ⟨_, _, _, _, _, rfl⟩ := m.rest
      rfl
    | mountedAll ms =>
      clear e
      induction ms with
      | refl => rfl
      | tail _ m ih =>
        obtain ⟨_, _, _, _, _, rfl⟩ := m.rest
        exact ih
    | unmounted _ _ q => exact q.dirHandles
    | unmountedAll q => exact q.dirHandles
    | opened _ _ _ _ q => exact q.dirHandles
    | closed _ q q' => exact q'.dirHandles.trans q.dirHandles
    | marked => rfl
    | diropened => exact k.elim
    | dirclosed => exact k.elim
  | rehash h => rw [h.rest]
  | foreignOpen => rfl
  | registerDevice => rfl
  | unregisterDevice => rfl

namespace Opened

/-- What happens elsewhere keeps the account. -/
lemma elsewhere (o : Opened B own ds s) (run : Elsewhere B s s') : Opened B own ds s' := by
  refine Runs.invariant ?_ run o
  intro s l s' o ok st
  exact ⟨o.keyed.step o.wf ok.1 st, o.wf.step st, ok.2.dirHandles st ▸ o.handles⟩

/-- So does what changes no table. -/
lemma quiet (o : Opened B own ds s) (q : Pimpl.Quiet B s s') : Opened B own ds s' :=
  ⟨o.keyed.quiet q, o.wf.quiet q, q.dirHandles ▸ o.handles⟩

/-- `diropen` hands out a handle, or a code. -/
lemma diropen (coded : ∀ fs p w, (B.call fs (.diropen p) w).1 ≠ .error 0) {path : Str}
    {r : Except ErrorCode DirectoryHandle} (o : Opened B own ds s)
    (e : Pimpl.diropen B path s = (r, s')) :
    match r with
    | .ok handle => ∀ d : Dirstream, d.dirh = handle → Opened B own (d :: ds) s'
    | .error code => code ≠ 0 ∧ Opened B own ds s' := by
  have st := @Pimpl.diropen_effect _ B s path
  rw [e] at st
  have drops : Pimpl.DropsUnused B s (.op (.diropen path) (.ok 0)) := trivial
  have k := o.keyed.effect o.wf drops st
  have wf := o.wf.effect st
  unfold Pimpl.diropen at e
  split at e
  · rename_i ha
    cases e
    unfold absolutePath at ha
    split at ha
    · cases ha
    · cases ha
      exact ⟨by decide, o⟩
  · split at e
    · cases e
      exact ⟨by decide, o⟩
    · rename_i abspath _ _ mp _
      have q : Pimpl.Quiet B s (Pimpl.lockedCall B mp (.diropen abspath) s).2 :=
        .lockedCall nofun
      have hc : (Pimpl.lockedCall B mp (.diropen abspath) s).1 ≠ .error 0 := coded _ _ _
      split at e
      · rename_i h
        rw [h] at q hc
        cases e
        exact ⟨fun h0 => hc (h0 ▸ rfl), o.quiet q⟩
      · rename_i h
        rw [h] at q
        cases e
        rintro d rfl
        exact ⟨k, wf, (q.dirHandles ▸ o.handles).cons _⟩

/-- A stream has a handle that is open. -/
lemma mem {d : Dirstream} (o : Opened B own (d :: ds) s) : d.dirh ∈ s.dirHandles :=
  o.handles.mem_iff.mpr List.mem_cons_self

/-- The next entry is asked for, and the stream stays on its handle. -/
lemma nextEntry {d : Dirstream} (o : Opened B own (d :: ds) s) :
    ∃ x d' s', Syscalls.nextEntry B d s = .ok (x, d', s') ∧ d'.dirh = d.dirh ∧
      Pimpl.Quiet B s s' := by
  obtain ⟨⟨⟨ret, out⟩, s₁⟩, e⟩ := o.keyed.dirOp_returns (B := B) .dirnext o.mem
  have e' : Pimpl.invokeDirops B .dirnext d.dirh s = .ok ((ret, out), s₁) := e
  have q := Pimpl.Quiet.invokeDirops e'
  rw [Syscalls.nextEntry, e]
  simp only
  split
  · exact ⟨_, _, _, rfl, rfl, q⟩
  · split
    · exact ⟨_, _, _, rfl, rfl, q⟩
    · split
      · exact ⟨_, _, _, rfl, rfl, q⟩
      · exact ⟨_, _, _, rfl, rfl, q⟩

/-- `readdir` returns, and the stream stays on its handle. -/
lemma readdir {d : Dirstream} (o : Opened B own (d :: ds) s) (errno : ErrorCode) :
    ∃ r d', Syscalls.readdir B errno (some d) s = .ok r ∧ r.dirp = some d' ∧
      Opened B own (d' :: ds) r.vfs := by
  obtain ⟨x, d', s', e, hd, q⟩ := o.nextEntry
  have o' := o.quiet q
  -- only the handle of a stream counts
  have same : ∀ d' : Dirstream, d'.dirh = d.dirh → Opened B own (d' :: ds) s' := by
    intro d' hd
    refine ⟨o'.keyed, o'.wf, ?_⟩
    rw [List.map_cons, hd]
    exact o'.handles
  rw [Syscalls.readdir, e]
  cases x with
  | error code => exact ⟨_, _, rfl, rfl, same _ hd⟩
  | ok entry =>
    cases entry with
    | none => exact ⟨_, _, rfl, rfl, same _ hd⟩
    | some entry => exact ⟨_, _, rfl, rfl, same _ hd⟩

/-- `closedir` gives the handle back. -/
lemma closedir {d : Dirstream} (o : Opened B own (d :: ds) s) (errno : ErrorCode) :
    ∃ r, Syscalls.closedir B errno (some d) s = .ok r ∧ Opened B own ds r.vfs := by
  obtain ⟨⟨ret, s'⟩, e⟩ := o.keyed.dirOp_returns (B := B) .dirclose o.mem
  rw [Syscalls.closedir, e]
  refine ⟨_, rfl, ?_⟩
  have e' : Pimpl.dirclose B d.dirh s = .ok (ret, s') := e
  unfold Pimpl.dirclose at e'
  split at e'
  · cases e'
  · rename_i h
    cases e'
    have o' := o.quiet (.invokeDirops h)
    refine ⟨o'.keyed.mono (fun e => ⟨_, e⟩) (fun h => List.mem_of_mem_erase h) fun _ _ => rfl,
      o'.wf.restrict id rfl rfl, ?_⟩
    have p := o'.handles.erase d.dirh
    rwa [List.map_cons, List.cons_append, List.erase_cons_head] at p

end Opened

end Syscalls

/-! ### On an ext4 volume -/

section Ext4
open Lwext4
variable {bl : BlockLayer} {τ : Type}

end Ext4

section Sample
open Lwext4

/-- A file is closed. -/
def closed (env : Env (Pimpl (World × (FsId → Str)))) : Env (Pimpl (World × (FsId → Str))) :=
  { env with world := Pimpl.play Pimpl.ext [.file .close 3] env.world }

end Sample

end FsDir
end Evfs
