import Evfs.Common.DescriptorHistory
import Evfs.Vfs.DeferredUnlink
import Evfs.Vfs.Handles
import Evfs.Vfs.UmountAll

/-!
# The destructor

`~VirtualFS` closes the files that are still open, unlinks the marked paths and unmounts everything.
`TornDown` is what it owes after a history: each descriptor that was opened and not closed is closed
once, with the handle that its `open` was answered with and on the object that made it, each path that
was unlinked while it was open, and has been open ever since, is unlinked once, after its own
descriptors were closed, and all of that comes before the first `unmount`. It holds whatever the single calls return, in every reachable state in
which the open files are still mounted. `Tracked` is what every run keeps of the tables: the
descriptors and marks of the history, and that a path is unlinked at all, since it has a mount point,
that of its open files.
-/

namespace Evfs
open Lib
open FileDescriptorContainer (Holds listAfter markedAfter)
namespace Pimpl
variable {σ : Type} (B : Backend σ)

/-- What a label is to the descriptor table. -/
def tableLabel : Label → ContainerLabel
  | .op (.open path _ _) (.ok fd) => .insert path fd
  | .op (.file .close fd) _ => .remove fd none
  | .op (.path .unlink path) _ => .mark path
  | .foreignOpen => .foreign
  | _ => .rehash

/-- The descriptors of a path that were opened and not closed. -/
def fdsAfter (k : Str) (h : List Label) : List Int := listAfter k (h.map tableLabel)

/-- Was the path unlinked while it was open, and has it been open ever since? -/
def unlinkedAfter (k : Str) (h : List Label) : Bool := markedAfter k (h.map tableLabel)

/-- The descriptor table after a history. -/
structure Tracked (s₀ : Pimpl σ) (h : List Label) (s : Pimpl σ) : Prop where
  idx : s.idx = s₀.idx + opens h
  wf : s.fdContainer.Wf s.idx
  holds : Holds (h.map tableLabel) s.fdContainer
  /-- A path lies below the root of every file open on it. -/
  within {k d fd fil} : s.fdContainer.byPath.lookup k = some d → fd ∈ d.indexes →
    s.fdContainer.byId.lookup fd = some fil → fil.root <:+: k
  mounts : MountsWf B s
  paths : PathsWf s

/-- The handle that a descriptor was given in a run: what the filesystem answered to its `open`. -/
inductive Given (s₀ : Pimpl σ) (fd : Int) (fil : FileHandle) : List Label → Pimpl σ → Prop where
  | opened {h s s' path flags mode abspath mp} : Trace (Step B) s₀ h s →
    Step B s (.op (.open path flags mode) (.ok fd)) s' → absolutePath path = .ok abspath →
    findMountPoint s.mounts abspath = some mp →
    (B.call mp.fs (.open abspath flags mode) s.world).1 = .ok fil →
    Given s₀ fd fil (.op (.open path flags mode) (.ok fd) :: h) s'
  | later {h s l s'} : Given s₀ fd fil h s → Step B s l s' →
    (∀ path flags mode, l ≠ .op (.open path flags mode) (.ok fd)) → Given s₀ fd fil (l :: h) s'

/-- The handles of descriptors are closed in turn, each on the object that made it. -/
inductive Closes (c : FileDescriptorContainer) : List Int → List Event → Prop where
  | nil : Closes c [] []
  | cons {fd fil e fds evs} : c.byId.lookup fd = some fil → Closes c fds evs →
    Closes c (fd :: fds) (.lock fil.owner :: .call fil.owner (.file .close fil) e ::
      .unlock fil.owner :: evs)

/-- The entries of the table are cleaned up in turn: the descriptors are closed, then the path is
unlinked if it is marked. -/
inductive Cleans (c : FileDescriptorContainer) :
    List (Σ _ : Str, FileDescriptor) → List Event → Prop where
  | nil : Cleans c [] []
  | kept {k d es evs evs'} : d.markedForUnlink = false → Closes c d.indexes evs →
    Cleans c es evs' → Cleans c (⟨k, d⟩ :: es) (evs ++ evs')
  | unlinked {k d es evs ev evs'} : d.markedForUnlink = true → Closes c d.indexes evs →
    UnlinkCall k ev → Cleans c es evs' → Cleans c (⟨k, d⟩ :: es) (evs ++ (ev ++ evs'))

/-- The calls of `close`, with the objects they are made on. -/
def closeCalls : List Event → List (FsId × FileHandle)
  | [] => []
  | .call fs (.file .close fil) _ :: l => (fs, fil) :: closeCalls l
  | _ :: l => closeCalls l

/-- The calls of `unlink`. -/
def unlinkCalls : List Event → List Str
  | [] => []
  | .call _ (.path .unlink path) _ :: l => path :: unlinkCalls l
  | _ :: l => unlinkCalls l

/-- The calls that close descriptors on the objects their files were opened on. -/
def closesOf (c : FileDescriptorContainer) (fds : List Int) : List (FsId × FileHandle) :=
  fds.filterMap fun fd => (c.byId.lookup fd).map fun fil => (fil.owner, fil)

/-- The marked paths. -/
def markedPaths (es : List (Σ _ : Str, FileDescriptor)) : List Str :=
  (es.filter fun e => e.2.markedForUnlink).map Sigma.fst

/-- No method but `unmount`. -/
def Unmounting : Event → Prop
  | .lock _ => True
  | .unlock _ => True
  | .call _ c _ => c = .unmount
  | _ => False

/-- What the destructor owes in a state with a history: `evs` comes before `rest`. -/
structure TornDown (s₀ : Pimpl σ) (h : List Label) (s : Pimpl σ) (evs rest : List Event) :
    Prop where
  /-- The descriptors with a handle are those opened and not closed. -/
  handles {fd} : fd ∈ s.fdContainer.byId ↔ ∃ k, fd ∈ fdsAfter k h
  /-- The handle is the one that the descriptor was given. -/
  given {fd fil} : s.fdContainer.byId.lookup fd = some fil → Given B s₀ fd fil h s
  /-- Each of them is closed once, on the object that made its handle, and nothing else is. -/
  closed : (closeCalls evs).Perm (closesOf s.fdContainer s.fdContainer.byId.keys)
  /-- Every path unlinked while it was open is unlinked, and no other. -/
  unlinked {k} : k ∈ unlinkCalls evs ↔ unlinkedAfter k h = true
  /-- No path is unlinked twice. -/
  once : (unlinkCalls evs).Nodup
  /-- A path is unlinked after its descriptors are closed. -/
  order {k} : unlinkedAfter k h = true →
    ∃ before closes ev after, evs = before ++ (closes ++ (ev ++ after)) ∧
      Closes s.fdContainer (fdsAfter k h) closes ∧ UnlinkCall k ev
  /-- Nothing is unmounted before the last of these calls. -/
  before {fs e} : Event.call fs .unmount e ∉ evs
  rest {ev} : ev ∈ rest → Unmounting ev

variable {B} {s s' s₀ : Pimpl σ} {h : List Label}

/-! ### The tables of a run -/

/-- Nothing is tracked at first. -/
lemma Tracked.init (reach : Reachable B s₀) (empty : s₀.fdContainer = {}) :
    Tracked B s₀ [] s₀ where
  idx := (Int.add_zero _).symm
  wf := empty ▸ FileDescriptorContainer.Wf.init
  holds := empty ▸ Holds.init
  within e := by rw [empty] at e; cases e
  mounts := MountsWf.reachable reach
  paths := PathsWf.reachable reach

/-- The descriptor table after a step that leaves it alone. -/
lemma Tracked.same {l : Label} (tk : Tracked B s₀ h s) (st : Step B s l s')
    (ho : opens (l :: h) = opens h) (hl : tableLabel l = .rehash) (hx : s'.idx = s.idx)
    (hc : s'.fdContainer = s.fdContainer) : Tracked B s₀ (l :: h) s' where
  idx := by rw [hx, tk.idx, ho]
  wf := by rw [hx, hc]; exact tk.wf
  holds := by
    rw [hc, List.map_cons, hl]
    exact tk.holds.congr (fun _ => rfl) (fun _ => rfl) fun _ => rfl
  within := by rw [hc]; exact tk.within
  mounts := tk.mounts.step st
  paths := tk.paths.step st

/-- A successful `open`: the new file was opened under a root that occurs in its path. -/
lemma Tracked.opened {path abspath : Str} {flags : Flags} {mode fd : Int} {mp : MountPoint}
    {handle : FileHandle} (tk : Tracked B s₀ h s)
    (st : Step B s (.op (.open path flags mode) (.ok fd)) s') (lo : 0 ≤ s.idx)
    (hi : s.idx + 1 < 2 ^ 31) (ha : absolutePath path = .ok abspath)
    (hm : findMountPoint s.mounts abspath = some mp) (hr : handle.root = B.rootOf s.world mp.fs)
    (hf : fd = s.idx) (hc : s'.fdContainer = s.fdContainer.insert s.idx path handle)
    (hx : s'.idx = nextIdx s.idx) : Tracked B s₀ (.op (.open path flags mode) (.ok fd) :: h) s' := by
  have hn := nextIdx_eq lo hi
  have below : handle.root <:+: Path.lexicallyNormal path := by
    obtain ⟨k, hk, ho⟩ := lookup_of_findMountPoint hm
    rwa [hr, tk.mounts.mounted hk, ← (absolutePath_ok ha).2]
  constructor
  case idx =>
    show s'.idx = s₀.idx + (opens h + 1 : Nat)
    have e := tk.idx
    omega
  case wf =>
    rw [hc]
    exact tk.wf.insert (by omega)
  case holds =>
    rw [hc, List.map_cons, tableLabel, hf]
    exact tk.holds.insert
  case within =>
    intro k d i fil e hi' e'
    rw [hc] at e e'
    rcases FileDescriptorContainer.mem_indexes_insert e hi' with ⟨rfl, rfl⟩ | ⟨d', e₁, h₁⟩
    · rw [FileDescriptorContainer.lookup_insert_byId tk.wf] at e'
      obtain rfl := Option.some.inj e'
      exact below
    · have ne : i ≠ s.idx := by
        rintro rfl
        exact absurd (tk.wf.fresh (tk.wf.handled e₁ h₁)) (lt_irrefl _)
      rw [FileDescriptorContainer.lookup_insert_byId_ne ne] at e'
      exact tk.within e₁ h₁ e'
  case mounts => exact tk.mounts.step st
  case paths => exact tk.paths.step st

/-- Closing a descriptor shortens the lists. -/
lemma Tracked.closed {fd : Int} {r : Reply} (tk : Tracked B s₀ h s)
    (st : Step B s (.op (.file .close fd) r) s') (hx : s'.idx = s.idx)
    (hc : s'.fdContainer = (s.fdContainer.remove fd).2) :
    Tracked B s₀ (.op (.file .close fd) r :: h) s' where
  idx := by rw [hx, tk.idx]; rfl
  wf := by rw [hx, hc]; exact tk.wf.remove
  holds := by
    rw [hc, List.map_cons]
    exact tk.holds.remove tk.wf
  within := by
    intro k d i fil e hi e'
    rw [hc] at e e'
    obtain ⟨d', e₁, rfl, -⟩ := tk.wf.lookup_remove_elim e
    exact tk.within e₁ (List.mem_of_mem_erase hi) (FileDescriptorContainer.lookup_byId_remove e')
  mounts := tk.mounts.step st
  paths := tk.paths.step st

/-- Marking changes no list. -/
lemma Tracked.marked {path : Str} {r : Reply} (tk : Tracked B s₀ h s)
    (st : Step B s (.op (.path .unlink path) r) s') (hx : s'.idx = s.idx)
    (hc : s'.fdContainer = s.fdContainer.markForUnlink path) :
    Tracked B s₀ (.op (.path .unlink path) r :: h) s' where
  idx := by rw [hx, tk.idx]; rfl
  wf := by rw [hx, hc]; exact tk.wf.markForUnlink
  holds := by
    rw [hc, List.map_cons]
    exact tk.holds.mark
  within := by
    intro k d i fil e hi e'
    rw [hc] at e e'
    rw [FileDescriptorContainer.byId_markForUnlink] at e'
    obtain ⟨d', e₁, h₁⟩ := FileDescriptorContainer.lookup_markForUnlink_elim e
    exact tk.within e₁ (h₁ ▸ hi) e'
  mounts := tk.mounts.step st
  paths := tk.paths.step st

/-- `close` takes the descriptor off the table, where it is there. -/
lemma close_fdContainer {e : ErrorCode} {fd : Int} (hc : close B fd s = .ok (e, s')) :
    s'.idx = s.idx ∧ s'.fdContainer = (s.fdContainer.remove fd).2 := by
  rcases close_cases hc with ⟨hn, rfl⟩ | ⟨fil, mp, hf, hm, h⟩
  · rw [FileDescriptorContainer.remove_of_notMem (AList.lookup_eq_none.mp hn)]
    exact ⟨rfl, rfl⟩
  · have q : Quiet B s (lockedCall B mp (.file .close fil) s).2 := Quiet.lockedFile
    rcases h with ⟨-, -, rfl⟩ | ⟨path, -, h⟩
    · exact ⟨q.idx, rfl⟩
    · have q' : Quiet B (afterRemove B s fd fil mp)
          (invokeFopsPath B .unlink path (afterRemove B s fd fil mp)).2 := Quiet.invokeFopsPath
      rw [← h] at q'
      exact ⟨q'.idx.trans q.idx, q'.fdContainer⟩

/-- `unlink` marks the path, where it is open. -/
lemma unlink_fdContainer (B : Backend σ) (path : Str) (s : Pimpl σ) :
    (unlink B path s).2.idx = s.idx ∧
      (unlink B path s).2.fdContainer = s.fdContainer.markForUnlink path := by
  by_cases hm : path ∈ s.fdContainer.byPath
  · rw [unlink_of_mem hm]
    exact ⟨rfl, rfl⟩
  · have q : Quiet B s (invokeFopsPath B .unlink path s).2 := Quiet.invokeFopsPath
    have e : s.fdContainer.byPath.lookup path = none := AList.lookup_eq_none.mpr hm
    rw [unlink_of_notMem hm]
    refine ⟨q.idx, q.fdContainer.trans ?_⟩
    rw [FileDescriptorContainer.markForUnlink, e]

/-- An operation that is none of `open`, `close` and `unlink`. -/
lemma Tracked.effect {a : Action} {r : Reply} (tk : Tracked B s₀ h s)
    (st : Step B s (.op a r) s') (ef : Effect B s a s')
    (hl : ∀ r, tableLabel (.op a r) = .rehash) (ho : opens (.op a r :: h) = opens h) :
    Tracked B s₀ (.op a r :: h) s' := by
  cases ef.descriptors with
  | same hi hc => exact tk.same st ho (hl r) hi hc
  | opened => cases hl (.ok 0)
  | closed => cases hl r
  | marked => cases hl r

/-- One step keeps the table that of the history. -/
lemma Tracked.step {l : Label} (tk : Tracked B s₀ h s) (lo : 0 ≤ s₀.idx)
    (bound : s₀.idx + opens (l :: h) < 2 ^ 31) (st : Step B s l s') :
    Tracked B s₀ (l :: h) s' := by
  have hx := tk.idx
  cases st with
  | op al e =>
    rename_i a r
    cases a with
    | «open» path flags mode =>
      have ho : Pimpl.open B path flags mode s = (r, s') := Except.ok.inj e
      cases r with
      | error err =>
        have q := open_error ho
        exact tk.same (.op al e) rfl rfl q.idx q.fdContainer
      | ok fd =>
        have hb : s₀.idx + (opens h + 1 : Nat) < 2 ^ 31 := bound
        obtain ⟨abspath, mp, handle, hp, hm, -, hc, -, hfd, -, hf, hi⟩ := open_ok ho
        obtain ⟨-, hr⟩ := B.open_stamp _ _ _ _ _ _ hc
        exact tk.opened (.op al e) (by omega) (by omega) hp hm hr hfd hf hi
    | file op fd =>
      cases op with
      | close =>
        obtain ⟨⟨e', s₁⟩, hc, he⟩ := map_ok e
        cases he
        obtain ⟨hi, hf⟩ := close_fdContainer hc
        exact tk.closed (.op al e) hi hf
      | _ => exact tk.effect (.op al e) (exec_effect e) (fun _ => rfl) rfl
    | path op path =>
      cases op with
      | unlink =>
        cases e
        obtain ⟨hi, hf⟩ := unlink_fdContainer B path s
        exact tk.marked (.op al rfl) hi hf
      | _ => exact tk.effect (.op al e) (exec_effect e) (fun _ => rfl) rfl
    | _ => exact tk.effect (.op al e) (exec_effect e) (fun _ => rfl) rfl
  | rehash rh =>
    have hidx : s'.idx = s.idx := by rw [rh.rest]
    constructor
    case idx => exact hidx.trans hx
    case wf =>
      rw [hidx]
      refine tk.wf.congr (fun k => rh.byPath.lookup k) fun fd => ?_
      rw [← AList.lookup_isSome, ← AList.lookup_isSome, rh.byId.lookup fd]
    case holds =>
      exact tk.holds.congr (fun k => rh.byPath.lookup k) (fun _ => rfl) fun _ => rfl
    case within =>
      intro k d fd fil e hi e'
      rw [rh.byPath.lookup k] at e
      rw [rh.byId.lookup fd] at e'
      exact tk.within e hi e'
    case mounts => exact tk.mounts.step (.rehash rh)
    case paths => exact tk.paths.step (B := B) (.rehash rh)
  | foreignOpen =>
    have hb : s₀.idx + (opens h + 1 : Nat) < 2 ^ 31 := bound
    have hn : nextIdx s.idx = s.idx + 1 := nextIdx_eq (by omega) (by omega)
    constructor
    case idx =>
      show nextIdx s.idx = s₀.idx + (opens h + 1 : Nat)
      omega
    case wf => exact tk.wf.mono (show s.idx ≤ nextIdx s.idx by omega)
    case holds => exact tk.holds.congr (fun _ => rfl) (fun _ => rfl) fun _ => rfl
    case within => exact tk.within
    case mounts => exact tk.mounts.step .foreignOpen
    case paths => exact tk.paths.step (B := B) .foreignOpen
  | registerDevice dev d => exact tk.same (.registerDevice dev d) rfl rfl rfl rfl
  | unregisterDevice name => exact tk.same (.unregisterDevice name) rfl rfl rfl rfl

/-- The descriptor table in every run. -/
lemma Tracked.run (reach : Reachable B s₀) (empty : s₀.fdContainer = {}) (lo : 0 ≤ s₀.idx)
    (tr : Trace (Step B) s₀ h s) (bound : s₀.idx + opens h < 2 ^ 31) : Tracked B s₀ h s := by
  induction tr with
  | nil => exact .init reach empty
  | @snoc h s l s' _ st ih =>
    have le := opens_le (h := h) (l := l)
    exact (ih (by omega)).step lo bound st

/-- A handle after a step was there before, or it is what an `open` was answered with. -/
lemma Tracked.handle {l : Label} {fd : Int} {fil : FileHandle} (tk : Tracked B s₀ h s)
    (st : Step B s l s') (e : s'.fdContainer.byId.lookup fd = some fil) :
    s.fdContainer.byId.lookup fd = some fil ∨
      ∃ path flags mode abspath mp, l = .op (.open path flags mode) (.ok fd) ∧
        absolutePath path = .ok abspath ∧ findMountPoint s.mounts abspath = some mp ∧
        (B.call mp.fs (.open abspath flags mode) s.world).1 = .ok fil := by
  cases st with
  | op al ex =>
    rename_i a r
    cases (exec_effect ex).descriptors with
    | same _ hc => exact .inl (hc ▸ e)
    | @opened path flags mode =>
      have ho : Pimpl.open B path flags mode s = (r, s') := Except.ok.inj ex
      cases r with
      | error err =>
        rw [(open_error ho).fdContainer] at e
        exact .inl e
      | ok fd' =>
        obtain ⟨abspath, mp, handle, ha, hm, -, hc, -, rfl, -, hf, -⟩ := open_ok ho
        rw [hf] at e
        by_cases hi : fd = s.idx
        · subst hi
          rw [FileDescriptorContainer.lookup_insert_byId tk.wf] at e
          cases e
          exact .inr ⟨path, flags, mode, abspath, mp, rfl, ha, hm, hc⟩
        · rw [FileDescriptorContainer.lookup_insert_byId_ne hi] at e
          exact .inl e
    | closed _ hc =>
      rw [hc] at e
      exact .inl (FileDescriptorContainer.lookup_byId_remove e)
    | marked _ hc =>
      rw [hc, FileDescriptorContainer.byId_markForUnlink] at e
      exact .inl e
  | rehash rh =>
    rw [rh.byId.lookup fd] at e
    exact .inl e
  | foreignOpen => exact .inl e
  | registerDevice => exact .inl e
  | unregisterDevice => exact .inl e

/-- A number that `open` returns has no handle yet. -/
lemma Tracked.unused {path : Str} {flags : Flags} {mode fd : Int} (tk : Tracked B s₀ h s)
    (st : Step B s (.op (.open path flags mode) (.ok fd)) s') :
    s.fdContainer.byId.lookup fd = none := by
  cases st with
  | op _ ex =>
    have ho : Pimpl.open B path flags mode s = (.ok fd, s') := Except.ok.inj ex
    obtain ⟨_, _, _, -, -, -, -, -, rfl, -⟩ := open_ok ho
    exact AList.lookup_eq_none.mpr fun hi => absurd (tk.wf.fresh hi) (lt_irrefl _)

/-- In every run each descriptor has the handle that it was given. -/
lemma Tracked.given {fd : Int} {fil : FileHandle} (reach : Reachable B s₀)
    (empty : s₀.fdContainer = {}) (lo : 0 ≤ s₀.idx) (tr : Trace (Step B) s₀ h s)
    (bound : s₀.idx + opens h < 2 ^ 31) (e : s.fdContainer.byId.lookup fd = some fil) :
    Given B s₀ fd fil h s := by
  induction tr with
  | nil =>
    rw [empty] at e
    cases e
  | @snoc h s l s' tr st ih =>
    have le := opens_le (h := h) (l := l)
    have tk : Tracked B s₀ h s := .run reach empty lo tr (by omega)
    rcases tk.handle st e with e | ⟨path, flags, mode, abspath, mp, rfl, ha, hm, hc⟩
    · refine .later (ih (by omega) e) st ?_
      rintro path flags mode rfl
      rw [tk.unused st] at e
      cases e
    · exact .opened tr st ha hm hc

/-- The entry of a path that was unlinked while it was open. -/
lemma Tracked.lookup_unlinked (tk : Tracked B s₀ h s) {k : Str} (hm : unlinkedAfter k h = true) :
    s.fdContainer.byPath.lookup k = some ⟨fdsAfter k h, unlinkedAfter k h⟩ := by
  refine (tk.holds k).trans (FileDescriptorContainer.entryAfter_eq_some.mpr ⟨fun e => ?_, rfl⟩)
  rw [unlinkedAfter, FileDescriptorContainer.markedAfter_of_nil e] at hm
  cases hm

/-! ### Cleaning up -/

/-- The files in use are still mounted where they were opened. -/
def FilesMounted (s : Pimpl σ) : Prop :=
  ∀ {fd fil}, s.fdContainer.byId.lookup fd = some fil → Denotes s fil.root fil.owner

/-- Quiet code keeps the files' mounts. -/
lemma FilesMounted.quiet (fm : FilesMounted s) (q : Quiet B s s') : FilesMounted s' := by
  intro fd fil e
  rw [q.fdContainer] at e
  exact (fm e).same (by rw [q.mounts])

/-- The path of an open file is served. -/
lemma Tracked.served (tk : Tracked B s₀ h s) (fm : FilesMounted s) {k : Str} {d : FileDescriptor}
    (e : s.fdContainer.byPath.lookup k = some d) : Served s k := by
  obtain ⟨fd, hfd⟩ := List.exists_mem_of_ne_nil _ (tk.wf.nonempty e)
  obtain ⟨fil, hf⟩ := UnorderedMap.exists_lookup (tk.wf.handled e hfd)
  obtain ⟨mp, hm, -⟩ := fm hf
  have hk := UnorderedMap.mem_of_lookup e
  exact ⟨tk.paths.rooted hk, tk.paths.normal hk, fil.root, UnorderedMap.mem_of_lookup hm,
    tk.within e hfd hf⟩

/-- The inner loop closes every descriptor of a list. -/
lemma closeLoop_closes {fds : List Int} (fm : FilesMounted s)
    (open' : ∀ fd ∈ fds, fd ∈ s.fdContainer.byId) :
    ∃ s' evs, Pimpl.closeLoop B fds s = .ok s' ∧ Quiet B s s' ∧ s'.log = s.log ++ evs ∧
      Closes s.fdContainer fds evs := by
  induction fds generalizing s with
  | nil => exact ⟨s, [], rfl, .refl, (List.append_nil _).symm, .nil⟩
  | cons fd fds ih =>
    obtain ⟨fil, hf⟩ := UnorderedMap.exists_lookup (open' fd List.mem_cons_self)
    obtain ⟨mp, hm, ho⟩ := fm hf
    have hi : Pimpl.invokeFopsFd B .close fd s = .ok (lockedCall B mp (.file .close fil) s) := by
      simp only [Pimpl.invokeFopsFd, hf, hm]
    have q : Quiet B s (lockedCall B mp (.file .close fil) s).2 := Quiet.lockedFile
    obtain ⟨s', evs, e, q', hl, cs⟩ := ih (fm.quiet q) fun fd' h => by
      rw [q.fdContainer]
      exact open' fd' (List.mem_cons_of_mem _ h)
    rw [q.fdContainer] at cs
    have log : s'.log = s.log ++ (.lock fil.owner ::
        .call fil.owner (.file .close fil) (lockedCall B mp (.file .close fil) s).1 ::
        .unlock fil.owner :: evs) := by
      rw [hl, log_lockedCall, ho, List.append_assoc]
      rfl
    refine ⟨s', _, ?_, q.trans q', log, .cons hf cs⟩
    simp only [Pimpl.closeLoop, hi, e]

/-- The outer loop cleans up every entry of a list. -/
lemma cleanupLoop_cleans {es : List (Σ _ : Str, FileDescriptor)} (fm : FilesMounted s)
    (open' : ∀ e ∈ es, ∀ fd ∈ e.2.indexes, fd ∈ s.fdContainer.byId)
    (served : ∀ e ∈ es, Served s e.1) :
    ∃ s' evs, Pimpl.cleanupLoop B es s = .ok s' ∧ Quiet B s s' ∧ s'.log = s.log ++ evs ∧
      Cleans s.fdContainer es evs := by
  induction es generalizing s with
  | nil => exact ⟨s, [], rfl, .refl, (List.append_nil _).symm, .nil⟩
  | cons e es ih =>
    obtain ⟨k, d⟩ := e
    obtain ⟨s₁, evs₁, e₁, q₁, hl₁, cs₁⟩ :=
      closeLoop_closes (B := B) fm (open' _ List.mem_cons_self)
    have sv : Served s₁ k := (served _ List.mem_cons_self).congr fun _ h => q₁.mounts ▸ h
    -- the rest of the entries, from a state that has the same tables
    have rest : ∀ {s₂ : Pimpl σ}, Quiet B s s₂ → ∃ s' evs, Pimpl.cleanupLoop B es s₂ = .ok s' ∧
        Quiet B s s' ∧ s'.log = s₂.log ++ evs ∧ Cleans s.fdContainer es evs := by
      intro s₂ q₂
      obtain ⟨s', evs, e', q', hl', cs'⟩ := ih (fm.quiet q₂)
        (fun e h => by rw [q₂.fdContainer]; exact open' e (List.mem_cons_of_mem _ h))
        (fun e h => (served e (List.mem_cons_of_mem _ h)).congr fun _ h => q₂.mounts ▸ h)
      rw [q₂.fdContainer] at cs'
      exact ⟨s', evs, e', q₂.trans q', hl', cs'⟩
    cases hm : d.markedForUnlink with
    | false =>
      obtain ⟨s', evs, e', q', hl', cs'⟩ := rest q₁
      refine ⟨s', evs₁ ++ evs, ?_, q', ?_, .kept hm cs₁ cs'⟩
      · simpa [Pimpl.cleanupLoop, e₁, hm] using e'
      · rw [hl', hl₁, List.append_assoc]
    | true =>
      obtain ⟨ev, uc, hl₂⟩ := unlink_served (B := B) sv
      obtain ⟨s', evs, e', q', hl', cs'⟩ := rest (q₁.trans Quiet.invokeFopsPath)
      refine ⟨s', evs₁ ++ (ev ++ evs), ?_, q', ?_, .unlinked hm cs₁ uc cs'⟩
      · simpa [Pimpl.cleanupLoop, e₁, hm] using e'
      · rw [hl', hl₂, hl₁]
        simp only [List.append_assoc]

/-! ### What was called -/

/-- The closes of two parts of a log. -/
lemma closeCalls_append (l l' : List Event) :
    closeCalls (l ++ l') = closeCalls l ++ closeCalls l' := by
  induction l using closeCalls.induct with
  | case1 => rfl
  | case2 fs fil e l ih => simp only [List.cons_append, closeCalls, ih]
  | case3 ev l hev ih => simp only [List.cons_append, closeCalls, ih]

/-- The unlinks of two parts of a log. -/
lemma unlinkCalls_append (l l' : List Event) :
    unlinkCalls (l ++ l') = unlinkCalls l ++ unlinkCalls l' := by
  induction l using unlinkCalls.induct with
  | case1 => rfl
  | case2 fs path e l ih => simp only [List.cons_append, unlinkCalls, ih]
  | case3 ev l hev ih => simp only [List.cons_append, unlinkCalls, ih]

/-- Closing the descriptors of a path makes no unlink. -/
lemma Closes.calls {c : FileDescriptorContainer} {fds : List Int} {evs : List Event}
    (cs : Closes c fds evs) : closeCalls evs = closesOf c fds ∧ unlinkCalls evs = [] := by
  induction cs with
  | nil => exact ⟨rfl, rfl⟩
  | cons hf _ ih => exact ⟨by simp [closeCalls, closesOf, hf, ih.1], by simp [unlinkCalls, ih.2]⟩

/-- The deferred unlink makes no close. -/
lemma UnlinkCall.calls {k : Str} {evs : List Event} (uc : UnlinkCall k evs) :
    closeCalls evs = [] ∧ unlinkCalls evs = [k] := by
  obtain ⟨fs, e, rfl⟩ := uc
  exact ⟨rfl, rfl⟩

/-- The descriptors of the entries, in the order of the table. -/
def listed (es : List (Σ _ : Str, FileDescriptor)) : List Int := es.flatMap fun e => e.2.indexes

/-- The closes of two lists of descriptors. -/
lemma closesOf_append {c : FileDescriptorContainer} {l l' : List Int} :
    closesOf c (l ++ l') = closesOf c l ++ closesOf c l' := List.filterMap_append

/-- The clean-up closes every descriptor and unlinks every marked path. -/
lemma Cleans.calls {c : FileDescriptorContainer} {es : List (Σ _ : Str, FileDescriptor)}
    {evs : List Event} (cs : Cleans c es evs) :
    closeCalls evs = closesOf c (listed es) ∧ unlinkCalls evs = markedPaths es := by
  induction cs with
  | nil => exact ⟨rfl, rfl⟩
  | kept hm cl _ ih =>
    rw [closeCalls_append, unlinkCalls_append, cl.calls.1, cl.calls.2, ih.1, ih.2]
    simp [listed, closesOf_append, markedPaths, hm]
  | unlinked hm cl uc _ ih =>
    simp only [closeCalls_append, unlinkCalls_append, cl.calls.1, cl.calls.2, uc.calls.1,
      uc.calls.2, ih.1, ih.2]
    simp [listed, closesOf_append, markedPaths, hm]

/-- Where an entry is cleaned up. -/
lemma Cleans.order {c : FileDescriptorContainer} {es : List (Σ _ : Str, FileDescriptor)}
    {evs : List Event} {k : Str} {d : FileDescriptor} (cs : Cleans c es evs)
    (he : ⟨k, d⟩ ∈ es) (hm : d.markedForUnlink = true) :
    ∃ before closes ev after, evs = before ++ (closes ++ (ev ++ after)) ∧
      Closes c d.indexes closes ∧ UnlinkCall k ev := by
  induction cs with
  | nil => cases he
  | @kept k' d' es evs₁ evs₂ hm' cl _ ih =>
    rcases List.mem_cons.mp he with e | he
    · cases e
      rw [hm'] at hm
      cases hm
    · obtain ⟨before, closes, ev, after, rfl, cl', uc⟩ := ih he
      exact ⟨evs₁ ++ before, closes, ev, after, by simp only [List.append_assoc], cl', uc⟩
  | @unlinked k' d' es evs₁ ev₁ evs₂ _ cl uc _ ih =>
    rcases List.mem_cons.mp he with e | he
    · cases e
      exact ⟨[], evs₁, ev₁, evs₂, rfl, cl, uc⟩
    · obtain ⟨before, closes, ev, after, rfl, cl', uc'⟩ := ih he
      exact ⟨evs₁ ++ (ev₁ ++ before), closes, ev, after, by simp only [List.append_assoc], cl', uc'⟩

/-- The entries list the open descriptors, each once. -/
lemma listed_perm {c : FileDescriptorContainer} {idx : Int} (wf : c.Wf idx) :
    (listed c.byPath.entries).Perm c.byId.keys := by
  have lookup : ∀ {e : Σ _ : Str, FileDescriptor}, e ∈ c.byPath.entries →
      c.byPath.lookup e.1 = some e.2 := fun h => UnorderedMap.mem_entries_iff.mp h
  refine (List.perm_ext_iff_of_nodup ?_ c.byId.nodupKeys).mpr fun fd => ?_
  · refine List.nodup_flatMap.mpr ⟨fun e h => wf.nodup (lookup h), ?_⟩
    refine c.byPath.nodupKeys.pairwise_ne.imp_of_mem fun {e e'} h h' ne fd hi hi' => ?_
    exact ne (wf.unique (lookup h) (lookup h') hi hi')
  · refine List.mem_flatMap.trans ⟨?_, fun h => ?_⟩
    · rintro ⟨e, h, hi⟩
      exact wf.handled (lookup h) hi
    · obtain ⟨k, d, e, hi⟩ := wf.listed h
      exact ⟨⟨k, d⟩, UnorderedMap.mem_entries_iff.mpr e, hi⟩

/-- The loop of `umount_all` only unmounts. -/
lemma umountLoop_unmounting (B : Backend σ) (s : Pimpl σ) (es : List (Σ _ : Str, MountPoint)) :
    ∃ rest, (umountLoop B es s).2.log = s.log ++ rest ∧ ∀ ev ∈ rest, Unmounting ev := by
  induction es generalizing s with
  | nil => exact ⟨[], (List.append_nil _).symm, nofun⟩
  | cons e es ih =>
    obtain ⟨k, mp⟩ := e
    cases h : decide ((B.call mp.fs .unmount s.world).1 = 0) with
    | true =>
      obtain ⟨rest, hl, hr⟩ := ih (callFs B mp.fs .unmount ((s.lock mp).unlock mp)).2
      rw [umountLoop_next (of_decide_eq_true h)]
      refine ⟨_, hl.trans (log_umountRound B s mp rest), ?_⟩
      simpa [Unmounting] using hr
    | false =>
      rw [umountLoop_stop (of_decide_eq_false h)]
      have hl := log_umountRound B s mp []
      rw [List.append_nil] at hl
      exact ⟨_, hl, by simp [Unmounting]⟩

/-- Cleaning up unmounts nothing. -/
lemma Closes.before {c : FileDescriptorContainer} {fds : List Int} {evs : List Event} {fs : FsId}
    {e : ErrorCode} (cs : Closes c fds evs) : Event.call fs .unmount e ∉ evs := by
  induction cs with
  | nil => exact List.not_mem_nil
  | cons _ _ ih => simpa using ih

/-- The clean-up unmounts nothing. -/
lemma Cleans.before {c : FileDescriptorContainer} {es : List (Σ _ : Str, FileDescriptor)}
    {evs : List Event} {fs : FsId} {e : ErrorCode} (cs : Cleans c es evs) :
    Event.call fs .unmount e ∉ evs := by
  induction cs with
  | nil => exact List.not_mem_nil
  | kept _ cl _ ih => exact List.not_mem_append cl.before ih
  | unlinked _ cl uc _ ih =>
    obtain ⟨fs', e', rfl⟩ := uc
    exact List.not_mem_append cl.before (List.not_mem_append (by simp) ih)

/-- The paths that are marked in the table are those unlinked while they were open. -/
lemma Tracked.mem_markedPaths (tk : Tracked B s₀ h s) {k : Str} :
    k ∈ markedPaths s.fdContainer.byPath.entries ↔ unlinkedAfter k h = true := by
  constructor
  · intro hk
    obtain ⟨⟨k, d⟩, he, rfl⟩ := List.mem_map.mp hk
    obtain ⟨he, hm⟩ := List.mem_filter.mp he
    obtain ⟨-, rfl⟩ := tk.holds.of_lookup (UnorderedMap.mem_entries_iff.mp he)
    exact hm
  · intro hm
    have e := tk.lookup_unlinked hm
    exact List.mem_map.mpr ⟨_, List.mem_filter.mpr ⟨UnorderedMap.mem_entries_iff.mpr e, hm⟩, rfl⟩

/-- In every reachable state, with fewer than `2 ^ 31 - 3` opens in the process, in which the files
in use are still mounted where they were opened, the destructor does what it owes. -/
theorem destroy_tearsDown (reach : Reachable B s₀) (empty : s₀.fdContainer = {})
    (lo : 3 ≤ s₀.idx) (tr : Trace (Step B) s₀ h s) (bound : s₀.idx + opens h < 2 ^ 31)
    (fm : FilesMounted s) :
    ∃ s' evs rest, destroy B s = .ok s' ∧ s'.log = s.log ++ (evs ++ rest) ∧
      TornDown B s₀ h s evs rest := by
  have tk : Tracked B s₀ h s := .run reach empty (by omega) tr bound
  have lookup : ∀ {e : Σ _ : Str, FileDescriptor}, e ∈ s.fdContainer.byPath.entries →
      s.fdContainer.byPath.lookup e.1 = some e.2 := fun h => UnorderedMap.mem_entries_iff.mp h
  obtain ⟨s₁, evs, e₁, q, hl, cs⟩ := cleanupLoop_cleans (B := B) fm
    (fun e h fd hi => tk.wf.handled (lookup h) hi) (fun e h => tk.served fm (lookup h))
  obtain ⟨rest, hl', hr⟩ := umountLoop_unmounting B s₁ s₁.mounts.entries
  have e : destroy B s = .ok (umountAll B s₁).2 := by
    unfold destroy cleanupOpenedFiles
    rw [e₁]
  have log : (umountAll B s₁).2.log = s.log ++ (evs ++ rest) := by
    rw [← List.append_assoc, ← hl]
    exact hl'
  refine ⟨_, evs, rest, e, log, ?_⟩
  constructor
  case handles => exact tk.holds.mem_byId tk.wf
  case given => exact Tracked.given reach empty (by omega) tr bound
  case closed =>
    rw [cs.calls.1]
    exact (listed_perm tk.wf).filterMap _
  case unlinked =>
    intro k
    rw [cs.calls.2]
    exact tk.mem_markedPaths
  case once =>
    rw [cs.calls.2]
    exact (List.filter_sublist.map _).nodup s.fdContainer.byPath.nodupKeys
  case order =>
    intro k hm
    exact cs.order (UnorderedMap.mem_entries_iff.mpr (tk.lookup_unlinked hm)) hm
  case before => exact cs.before
  case rest => exact fun h => hr _ h

/-- A step of a session is a step. -/
lemma SessionStep.step {l : Label} (st : SessionStep B s l s') : Step B s l s' := by
  cases st with
  | op _ st => exact st
  | rehash st => exact st
  | foreignOpen st => exact st

/-- The files of the sample are on a mount. -/
lemma filesMounted_markedFile : FilesMounted markedFile := by
  intro fd fil e
  have he : markedFile.fdContainer.byId.entries =
      [⟨3, ⟨1, "/volume1".toList, "/volume1/f".toList, 0⟩⟩] := by decide
  have h := UnorderedMap.mem_entries_iff.mpr e
  rw [he] at h
  obtain ⟨rfl, rfl⟩ : fd = 3 ∧ fil = ⟨1, "/volume1".toList, "/volume1/f".toList, 0⟩ := by
    simpa using h
  have hm : (markedFile.mounts.lookup "/volume1".toList).map MountPoint.fs = some 1 := by decide
  obtain ⟨mp, hl, ho⟩ := Option.map_eq_some_iff.mp hm
  exact ⟨mp, hl, ho⟩

/-- A marked file is closed and unlinked before its volume is unmounted. -/
theorem destroy_tearsDown_markedFile :
    ∃ s' evs rest, destroy .accepting markedFile = .ok s' ∧
      s'.log = markedFile.log ++ (evs ++ rest) ∧
      TornDown .accepting PathCall.twoVolumes [.op (.path .unlink "/volume1/f".toList) (.ok 0),
        .op (.open "/volume1/f".toList 0 0) (.ok 3)] markedFile evs rest :=
  destroy_tearsDown PathCall.reachable_twoVolumes rfl (by decide)
    (session_markedFile.mono SessionStep.step) (by decide) filesMounted_markedFile

end Pimpl
end Evfs
