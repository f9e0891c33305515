import Evfs.Adapters.DirService
import Evfs.Vfs.OneMount

/-!
# Iterating over an ext4 volume

The directory iterators on top of the system calls, `VirtualFS` and `filesystem_lwext4`. As long as
the volumes do not change, these are a `Service` (`quiet`): the handle of a stream is nobody else's,
and its cursor is the position in the entries of its inode.
-/

namespace Evfs
open Lib Lwext4
namespace FsDir
variable {τ : Type}

/-! ### Streams -/

/-- What `readdir` makes of the entries of a directory. -/
def direntsOf (v : Volume) (d : Ino) : List Dirent :=
  (v.inodes d).entries.entries.map fun e =>
    .of e.1 { ino := e.2, mode := (v.inodes e.2).type.inoToStMode }

/-- Every name fits into a `dirent`. -/
def NamesFit (v : Volume) (d : Ino) : Prop :=
  ∀ e ∈ (v.inodes d).entries.entries, e.1.length < Dirent.nameSize

/-- The cursor of an open directory is set. -/
def setDir (raw : Nat) (dir : Lwext4.Dir) (w : World) : World :=
  { w with dirs := Function.update w.dirs raw dir }

/-- What is left to read from an open directory. -/
def remaining (v : Volume) (d : Lwext4.Dir) : List Dirent :=
  match d.next with
  | some pos => (direntsOf v d.inode).drop pos
  | none => []

variable {w : World} {raw : Nat} {i : Fin 4} {e : Dirent} {es : List Dirent}

/-- At the end there is no entry. -/
lemma entryNext_nil (hs : w.slotOf { mp := (w.dirs raw).mp } = some i)
    (h : remaining (w.volume i) (w.dirs raw) = []) : w.ext4DirEntryNext raw = (none, w) := by
  unfold World.ext4DirEntryNext
  simp only [hs]
  unfold remaining at h
  cases hn : (w.dirs raw).next with
  | none => rfl
  | some pos =>
    rw [hn] at h
    have le := List.drop_eq_nil_iff.mp h
    rw [direntsOf, List.length_map] at le
    simp only [List.getElem?_eq_none le]

/-- Before the end the next entry is read and the cursor moves on. -/
lemma entryNext_cons (hs : w.slotOf { mp := (w.dirs raw).mp } = some i)
    (h : remaining (w.volume i) (w.dirs raw) = e :: es) :
    ∃ x dir, w.ext4DirEntryNext raw =
        (some (x.1, x.2, ((w.volume i).inodes x.2).type), setDir raw dir w) ∧
      x ∈ ((w.volume i).inodes (w.dirs raw).inode).entries.entries ∧
      e = .of x.1 { ino := x.2, mode := ((w.volume i).inodes x.2).type.inoToStMode } ∧
      dir.mp = (w.dirs raw).mp ∧ dir.inode = (w.dirs raw).inode ∧
      remaining (w.volume i) dir = es := by
  unfold World.ext4DirEntryNext
  simp only [hs]
  unfold remaining at h
  cases hn : (w.dirs raw).next with
  | none =>
    rw [hn] at h
    cases h
  | some pos =>
    rw [hn] at h
    simp only at h
    have lt : pos < (direntsOf (w.volume i) (w.dirs raw).inode).length := by
      by_contra hlt
      rw [List.drop_eq_nil_of_le (Nat.le_of_not_lt hlt)] at h
      cases h
    rw [List.drop_eq_getElem_cons lt] at h
    obtain ⟨he, hes⟩ := List.cons.inj h
    rw [direntsOf, List.length_map] at lt
    let entries := ((w.volume i).inodes (w.dirs raw).inode).entries.entries
    refine ⟨entries[pos], ⟨(w.dirs raw).mp, (w.dirs raw).inode,
      if pos + 1 < entries.length then some (pos + 1) else none⟩, ?_, List.getElem_mem lt, ?_, rfl,
      rfl, ?_⟩
    · simp only [List.getElem?_eq_getElem lt]
      rfl
    · rw [← he]
      simp only [direntsOf, List.getElem_map]
      rfl
    · unfold remaining
      by_cases hlt : pos + 1 < entries.length
      · simp only [hlt, if_true]
        exact hes
      · simp only [hlt, if_false]
        rw [← hes, List.drop_eq_nil_of_le]
        rw [direntsOf, List.length_map]
        exact Nat.le_of_not_lt hlt

/-! ### Calls on a stream -/

section Calls
variable {bl : BlockLayer} {O : Backend τ} {s : Pimpl (World × τ)} {mp : MountPoint} {o : Object}
  {d : Dirstream}

/-- A method of the object that a directory handle belongs to. -/
lemma dirOp_lwext4 (bl : BlockLayer) (O : Backend τ) (op : DirOp) {h : DirectoryHandle}
    (ne : op ≠ .dirclose)
    (hm : s.mounts.lookup h.root = some mp) (ho : s.world.1.objects mp.fs = some o) :
    ∃ l, Pimpl.dirOp (backend bl O) op h s = .ok ((FilesystemLwext4.callDir op h s.world.1).1,
      { s with
        world := ((FilesystemLwext4.callDir op h s.world.1).2, s.world.2)
        log := s.log ++ l }) := by
  have e : Pimpl.dirOp (backend bl O) op h s = Pimpl.invokeDirops (backend bl O) op h s := by
    cases op with
    | dirclose => exact absurd rfl ne
    | _ => rfl
  have hc : (backend bl O).call mp.fs (.dir op h) s.world = _ := callObject_some ho
  refine ⟨[.lock mp.fs, .call mp.fs (.dir op h) (op.code (FilesystemLwext4.callDir op h
    s.world.1).1), .unlock mp.fs], ?_⟩
  rw [e, Pimpl.invokeDirops, hm]
  simp only [Pimpl.lockedCall, Pimpl.callFs, Pimpl.lock, Pimpl.unlock, hc, List.append_assoc]
  rfl

/-- The stream of a directory of a mounted volume, and what it still delivers. -/
structure Reads (s : Pimpl (World × τ)) (d : Dirstream) (es : List Dirent) : Prop where
  mount : ∃ mp o, s.mounts.lookup d.dirh.root = some mp ∧ s.world.1.objects mp.fs = some o
  slot : ∃ i, s.world.1.slotOf { mp := (s.world.1.dirs d.dirh.raw).mp } = some i ∧
    NamesFit (s.world.1.volume i) (s.world.1.dirs d.dirh.raw).inode ∧
    remaining (s.world.1.volume i) (s.world.1.dirs d.dirh.raw) = es

/-- `readdir` at the end. -/
lemma readdir_nil (bl : BlockLayer) (O : Backend τ) (errno : ErrorCode) (r : Reads s d []) :
    ∃ l, Syscalls.readdir (backend bl O) errno (some d) s =
      .ok ⟨none, errno, some d, { s with log := s.log ++ l }⟩ := by
  obtain ⟨mp, o, hm, ho⟩ := r.mount
  obtain ⟨i, hs, -, hr⟩ := r.slot
  obtain ⟨l, e⟩ := dirOp_lwext4 bl O .dirnext (by decide) hm ho
  have hd : FilesystemLwext4.callDir .dirnext d.dirh s.world.1 = ((ENOENT, none), s.world.1) := by
    show FilesystemLwext4.dirnext d.dirh s.world.1 = _
    rw [FilesystemLwext4.dirnext, entryNext_nil hs hr]
  rw [hd] at e
  refine ⟨l, ?_⟩
  rw [Syscalls.readdir, Syscalls.nextEntry, e]
  rfl

/-- `readdir` before the end. -/
lemma readdir_cons (bl : BlockLayer) (O : Backend τ) (errno : ErrorCode)
    (r : Reads s d (e :: es)) :
    ∃ d' s', Syscalls.readdir (backend bl O) errno (some d) s = .ok ⟨some e, errno, some d', s'⟩ ∧
      d'.dirh = d.dirh ∧ Reads s' d' es ∧
      ∃ dir l, s' = { s with
        world := (setDir d.dirh.raw dir s.world.1, s.world.2), log := s.log ++ l } := by
  obtain ⟨mp, o, hm, ho⟩ := r.mount
  obtain ⟨i, hs, fit, hr⟩ := r.slot
  obtain ⟨x, dir, hn, hx, he, hmp, hino, hr'⟩ := entryNext_cons hs hr
  obtain ⟨l, e'⟩ := dirOp_lwext4 bl O .dirnext (by decide) hm ho
  have hd : FilesystemLwext4.callDir .dirnext d.dirh s.world.1 =
      ((0, some (x.1, { ino := x.2, mode := ((s.world.1.volume i).inodes x.2).type.inoToStMode })),
        setDir d.dirh.raw dir s.world.1) := by
    show FilesystemLwext4.dirnext d.dirh s.world.1 = _
    rw [FilesystemLwext4.dirnext, hn]
  rw [hd] at e'
  have hlen := fit x hx
  refine ⟨{ d with position := d.position + 1, dirData := e },
    { s with world := (setDir d.dirh.raw dir s.world.1, s.world.2), log := s.log ++ l }, ?_, rfl,
    ⟨⟨mp, o, hm, ho⟩, i, ?_⟩, dir, l, rfl⟩
  · rw [Syscalls.readdir, Syscalls.nextEntry, e', he]
    simp [Nat.not_le.mpr hlen]
  · simp only [setDir, Function.update_self]
    rw [hmp, hino]
    exact ⟨hs, fit, hr'⟩

/-- `closedir` gives the handle back. -/
lemma closedir_ok (bl : BlockLayer) (O : Backend τ) (errno : ErrorCode) (r : Reads s d es) :
    ∃ l, Syscalls.closedir (backend bl O) errno (some d) s = .ok ⟨0, errno, none, { s with
      world := (setDir d.dirh.raw {} s.world.1, s.world.2), log := s.log ++ l,
      dirHandles := s.dirHandles.erase d.dirh }⟩ := by
  obtain ⟨mp, o, hm, ho⟩ := r.mount
  have hc : (backend bl O).call mp.fs (.dir .dirclose d.dirh) s.world = _ := callObject_some ho
  refine ⟨[.lock mp.fs, .call mp.fs (.dir .dirclose d.dirh) 0, .unlock mp.fs], ?_⟩
  rw [Syscalls.closedir, Pimpl.dirOp, Pimpl.dirclose, Pimpl.invokeDirops, hm]
  simp only [Pimpl.lockedCall, Pimpl.callFs, Pimpl.lock, Pimpl.unlock, hc, List.append_assoc]
  rfl

variable (bl) in
/-- The path leads to a directory of a mounted volume with these entries. -/
def Lists (s : Pimpl (World × τ)) (p : Str) (es : List Dirent) : Prop :=
  ∃ abspath mp o i f, absolutePath p = .ok abspath ∧
    findMountPoint s.mounts abspath = some mp ∧ s.world.1.objects mp.fs = some o ∧
    s.mounts.lookup o.root = some mp ∧
    s.world.1.lookup bl (some .dir) (toNativePath o.root abspath) = .ok (i, f) ∧
    NamesFit (s.world.1.volume i) f.inode ∧ es = direntsOf (s.world.1.volume i) f.inode

/-- Handles are handed out one after the other. -/
def handOut (dir : Lwext4.Dir) (w : World) : World :=
  { setDir w.nextRaw dir w with nextRaw := w.nextRaw + 1 }

/-- `opendir` takes a handle of its own. -/
lemma opendir_ok (O : Backend τ) (errno : ErrorCode) {p : Str} (ls : Lists bl s p es) :
    ∃ d dir l, d.dirh.raw = s.world.1.nextRaw ∧
      Syscalls.opendir (backend bl O) errno (some p) s = ⟨(), errno, some d, { s with
        world := (handOut dir s.world.1, s.world.2), log := s.log ++ l,
        dirHandles := d.dirh :: s.dirHandles }⟩ ∧
      Reads { s with
        world := (handOut dir s.world.1, s.world.2), log := s.log ++ l,
        dirHandles := d.dirh :: s.dirHandles } d es := by
  obtain ⟨abspath, mp, o, i, f, ha, hf, ho, hr, hl, fit, rfl⟩ := ls
  have hc : (backend bl O).call mp.fs (.diropen abspath) s.world = _ := callObject_some ho
  have hd : FilesystemLwext4.call bl mp.fs o (.diropen abspath) s.world.1 =
      (.ok ⟨mp.fs, o.root, s.world.1.nextRaw⟩,
        handOut ⟨some i, f.inode, some 0⟩ s.world.1) := by
    show FilesystemLwext4.diropen bl mp.fs o abspath s.world.1 = _
    rw [FilesystemLwext4.diropen, hl]
    rfl
  rw [hd] at hc
  refine ⟨{ dirh := ⟨mp.fs, o.root, s.world.1.nextRaw⟩ }, ⟨some i, f.inode, some 0⟩,
    [.lock mp.fs, .call mp.fs (.diropen abspath) 0, .unlock mp.fs], rfl, ?_, ⟨mp, o, hr, ho⟩, i, ?_⟩
  · rw [Syscalls.opendir]
    simp only [Pimpl.diropen, ha, hf, Pimpl.lockedCall, Pimpl.callFs, Pimpl.lock, Pimpl.unlock, hc,
      List.append_assoc]
    rfl
  · have hm := World.mounted_of_getMount (World.lookup_ok.mp hl).1
    simp only [handOut, setDir, Function.update_self]
    refine ⟨?_, fit, rfl⟩
    simp only [World.slotOf, Option.bind_some, hm, if_true]

end Calls

/-! ### The service -/

/-- The directories are as they were. -/
structure Still (s s' : Pimpl (World × τ)) : Prop where
  mounts : s'.mounts = s.mounts
  world : Confined (fun _ => False) s.world.1 s'.world.1

section Service
variable {bl : BlockLayer} {s s' s₀ : Pimpl (World × τ)} {d : Dirstream}

namespace Still

lemma trans (st : Still s₀ s) (st' : Still s s') : Still s₀ s' :=
  ⟨st'.mounts.trans st.mounts, st.world.trans st'.world⟩

/-- The volumes are as they were. -/
lemma volume (st : Still s s') (i : Fin 4) : s'.world.1.volume i = s.world.1.volume i :=
  st.world.volume fun _ h => h.elim

/-- A directory still has its entries. -/
lemma lists (st : Still s s') {p : Str} (h : Lists bl s p es) : Lists bl s' p es := by
  obtain ⟨abspath, mp, o, i, f, ha, hf, ho, hr, hl, fit, he⟩ := h
  rw [World.lookup_ok] at hl
  refine ⟨abspath, mp, o, i, f, ha, st.mounts ▸ hf, st.world.objects ▸ ho, st.mounts ▸ hr, ?_,
    ?_, ?_⟩
  · rw [World.lookup_ok, st.world.getMount, st.world.names, st.volume]
    exact hl
  · rwa [st.volume]
  · rwa [st.volume]

end Still

/-- A stream is read on as long as nobody else uses its handle. -/
lemma Reads.still (r : Reads s d es) (st : Still s s')
    (hd : s'.world.1.dirs d.dirh.raw = s.world.1.dirs d.dirh.raw) : Reads s' d es := by
  obtain ⟨⟨mp, o, hm, ho⟩, i, hs, fit, hr⟩ := r
  refine ⟨⟨mp, o, st.mounts ▸ hm, st.world.objects ▸ ho⟩, i, ?_, ?_, ?_⟩
  · rw [hd, World.slotOf, st.world.sMp]
    exact hs
  · rwa [hd, st.volume]
  · rwa [hd, st.volume]

/-- These streams are open, and nobody else uses their handles. -/
structure Streams (s₀ : Pimpl (World × τ)) (ss : List (Dirstream × List Dirent))
    (s : Pimpl (World × τ)) : Prop where
  still : Still s₀ s
  reads : ∀ x ∈ ss, Reads s x.1 x.2
  lt : ∀ x ∈ ss, x.1.dirh.raw < s.world.1.nextRaw
  apart : ss.Pairwise fun x y => x.1.dirh.raw ≠ y.1.dirh.raw

namespace Streams
variable {ss : List (Dirstream × List Dirent)} {dir : Lwext4.Dir} {l : List Event}
  {hs : List DirectoryHandle} {es' : List Dirent} {d' : Dirstream}

/-- A cursor is in no volume. -/
lemma still_setDir {w : World} : Confined (fun _ => False) w (setDir raw dir w) := .own

/-- Only the cursor of the first stream changes. -/
lemma setDir (h : Streams s₀ ((d, es) :: ss) s) :
    Streams s₀ ss { s with
      world := (FsDir.setDir d.dirh.raw dir s.world.1, s.world.2), log := l, dirHandles := hs } where
  still := h.still.trans ⟨rfl, still_setDir⟩
  reads x hx := by
    refine (h.reads x (List.mem_cons_of_mem _ hx)).still ⟨rfl, still_setDir⟩ ?_
    exact Function.update_of_ne (Ne.symm ((List.pairwise_cons.mp h.apart).1 x hx)) _ _
  lt x hx := h.lt x (List.mem_cons_of_mem _ hx)
  apart := (List.pairwise_cons.mp h.apart).2

/-- One stream more. -/
lemma push (h : Streams s₀ ss s) (r : Reads s d es) (lt : d.dirh.raw < s.world.1.nextRaw)
    (ap : ∀ x ∈ ss, d.dirh.raw ≠ x.1.dirh.raw) : Streams s₀ ((d, es) :: ss) s where
  still := h.still
  reads := List.forall_mem_cons.mpr ⟨r, h.reads⟩
  lt := List.forall_mem_cons.mpr ⟨lt, h.lt⟩
  apart := List.pairwise_cons.mpr ⟨ap, h.apart⟩

/-- A handle that is taken is no stream's. -/
lemma handOut (h : Streams s₀ ss s) :
    Streams s₀ ss { s with
      world := (FsDir.handOut dir s.world.1, s.world.2), log := l, dirHandles := hs } where
  still := h.still.trans ⟨rfl, .own⟩
  reads x hx := (h.reads x hx).still ⟨rfl, .own⟩
    (Function.update_of_ne (Nat.ne_of_lt (h.lt x hx)) _ _)
  lt x hx := Nat.lt_succ_of_lt (h.lt x hx)
  apart := h.apart

/-- What is logged does not matter. -/
lemma logged (h : Streams s₀ ss s) : Streams s₀ ss { s with log := l } where
  still := h.still.trans ⟨rfl, .refl⟩
  reads x hx := (h.reads x hx).still ⟨rfl, .refl⟩ rfl
  lt := h.lt
  apart := h.apart

end Streams

/-- As long as the directories are as they were, `symlink_status` of the library of the compiler knows
these paths as symbolic links, and only looks for that. -/
def Library.Quiet (lib : Library (Pimpl (World × τ))) (s₀ : Pimpl (World × τ))
    (links : Str → Prop) : Prop :=
  ∀ ⦃p env⦄, links p → Still s₀ env.world → ∃ errno l, lib.symlinkStatus p env =
    ((.symlink, 0), ⟨errno, { env.world with log := env.world.log ++ l }⟩)

/-- The system calls over volumes that do not change, the directories of which have less than `n`
entries. -/
def service (bl : BlockLayer) (O : Backend τ) (n : Nat) {lib : Library (Pimpl (World × τ))}
    {links : Str → Prop} (q : lib.Quiet s₀ links) :
    Service (Posix.syscalls (backend bl O) lib) where
  lists p es := Lists bl s₀ p es ∧ es.length < n
  denied _ := False
  kind p t := links p ∧ t = .symlink
  target _ _ := False
  Open := Streams s₀
  path_ne_nil := by
    rintro p es ⟨⟨abspath, -, -, -, -, ha, -⟩, -⟩ rfl
    cases ha
  opens env ls op := by
    obtain ⟨d, dir, l, hd, e, r⟩ := opendir_ok O env.errno (op.still.lists ls.1)
    refine ⟨d, _, congrArg (fun r => (r.dirp, (⟨r.errno, r.vfs⟩ : Env _))) e, ?_⟩
    refine op.handOut.push r (hd ▸ Nat.lt_succ_self _) fun x hx => ?_
    exact Nat.ne_of_gt (hd ▸ op.lt x hx)
  denies _ h := h.elim
  next env op := by
    obtain ⟨d', s', e, hd, r, dir, l, rfl⟩ :=
      readdir_cons bl O env.errno (op.reads _ List.mem_cons_self)
    refine ⟨d', _, congrArg (Except.map _) e, op.setDir.push r ?_ fun x hx => ?_⟩
    · exact hd ▸ op.lt _ List.mem_cons_self
    · exact hd ▸ (List.pairwise_cons.mp op.apart).1 x hx
  ends env op := by
    obtain ⟨l, e⟩ := readdir_nil bl O env.errno (op.reads _ List.mem_cons_self)
    exact ⟨_, _, congrArg (Except.map _) e, rfl, op.logged⟩
  closes env op := by
    obtain ⟨l, e⟩ := closedir_ok bl O env.errno (op.reads _ List.mem_cons_self)
    exact ⟨_, congrArg (Except.map _) e, op.setDir⟩
  symlinkStatus env h op := by
    obtain ⟨hl, rfl⟩ := h
    obtain ⟨errno, l, e⟩ := q hl op.still
    exact ⟨_, e, op.logged⟩
  status _ h := h.elim

end Service

end FsDir
end Evfs
