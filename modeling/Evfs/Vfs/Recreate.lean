import Evfs.Fstypes.FileData
import Evfs.Vfs.OneMount

/-!
# Creating a file again

A path that was unlinked and then opened with `O_CREAT` names a file again, which is to be there,
with what was written to it, when its descriptors are closed. `Restored` follows that file through a
session and keeps account of what it should hold: `dataAfter` goes by the results of the writes and
truncations through the descriptors that were opened since the unlink. No write of the session starts
behind the end of a file (`Orderly`), where it may end up in any block of the volume. A mark that is still on the
path when it is opened removes the file again at the last close; without one (`Renewable`) the file
and its data stay.
-/

namespace Evfs
open Lib Lwext4
namespace Pimpl
variable {σ τ : Type}

/-- The operations that can remove a file other than the path: those named so, and the `close` that
makes up for a deferred unlink. -/
def Removes (p : Str) (s : Pimpl σ) : Action → Prop
  | .path .unlink _ => True
  | .path .rmdir _ => True
  | .rename _ _ => True
  | .file .close fd => ∃ q, q ≠ p ∧ (s.fdContainer.remove fd).1 = some q
  | _ => False

/-- The step is no unlink, rename or rmdir that affects the file of the path. -/
structure Spares (k : Fin 4) (p : Str) (s : Pimpl (World × τ)) (l : Label)
    (s' : Pimpl (World × τ)) : Prop where
  unlink {q r} : l = .op (.path .unlink q) r → Path.lexicallyNormal q ≠ p
  keeps {a r i data} : l = .op a r → Removes p s a → s.world.1.Holds k p i data →
    s'.world.1.Holds k p i data

/-- What a file that held the data is to hold after a step. Of the open files those count whose
address is not below `since`. -/
def dataAfter (bl : BlockLayer) (O : Backend τ) (k : Fin 4) (since : Nat) (i : Ino)
    (s : Pimpl (World × τ)) (l : Label) (s' : Pimpl (World × τ)) (data : List UInt8) :
    List UInt8 :=
  match l with
  | .op (.open _ flags _) (.ok _) =>
    if trunc flags = true ∧ s'.world.1.Refers k s.world.1.nextRaw i then [] else data
  | .op (.file (.write bytes) fd) _ =>
    match (invokeStdstreamOut (backend bl O) fd bytes s).1, s.fdContainer.byId.lookup fd with
    | .error _, some fil =>
      if since ≤ fil.raw then World.dataWritten bl s.world.1 k fil.raw i bytes data
      else data
    | _, _ => data
  | .op (.file (.ftruncate len) fd) _ =>
    match s.fdContainer.byId.lookup fd with
    | some fil =>
      if since ≤ fil.raw then
        World.dataTruncated s.world.1 k fil.raw i (len % 2 ^ 64).toNat data
      else data
    | none => data
  | _ => data

/-- The condition: the path is not marked for unlink, the inodes on its way are in use, and so are
those of the open files, none of which from before `since` is the file of the path. -/
structure Renewable (k : Fin 4) (p : Str) (since : Nat) (s : Pimpl (World × τ)) : Prop where
  unmarked : ¬ s.fdContainer.Marked p
  inUse : (s.world.1.volume k).InUse rootIndex (s.world.1.names p k)
  filesInUse {raw} : raw < s.world.1.nextRaw → (s.world.1.files raw).mp = some k →
    (s.world.1.volume k).used (s.world.1.files raw).inode = true
  apart {raw} : raw < since → (s.world.1.files raw).mp = some k →
    ¬ (s.world.1.volume k).Leads rootIndex (s.world.1.names p k) (s.world.1.files raw).inode

/-- The path leads to the file, which holds the data, no mark and no descriptor from before `since`
threatens it. -/
structure Restored (mp : MountPoint) (k : Fin 4) (p : Str) (since : Nat) (i : Ino)
    (s : Pimpl (World × τ)) (data : List UInt8) : Prop where
  one : OneMount mp k s
  holds : s.world.1.Holds k p i data
  unmarked : ¬ s.fdContainer.Marked p
  old {raw} : raw < since → ¬ s.world.1.Refers k raw i
  since : since ≤ s.world.1.nextRaw

variable {bl : BlockLayer} {O : Backend τ} {s s' : Pimpl (World × τ)} {mp : MountPoint}
  {k : Fin 4} {p : Str} {since : Nat} {i : Ino} {data : List UInt8}

/-! ### The world below -/

/-- The one mounted slot, in a world with the same tables. -/
lemma OneMount.sameTables_only (one : OneMount mp k s) {w : World}
    (t : SameTables s.world.1 w) {j : Fin 4} (h : (w.sMp j).mounted = true) : j = k := by
  rw [t.sMp] at h
  exact one.only h

/-- No operation makes an address that was handed out refer to another file. -/
lemma OneMount.handles_exec (one : OneMount mp k s) {a : Action} {r : Reply}
    (ha : mounting a = false) (h : Pimpl.exec (backend bl O) a s = .ok (r, s')) :
    World.Handles s.world.1 s'.world.1 := by
  have inv : SameTables s.world.1 s'.world.1 ∧ World.Handles s.world.1 s'.world.1 := by
    apply (exec_drives ha h).invariant
      (I := fun w => SameTables s.world.1 w.1 ∧ World.Handles s.world.1 w.1)
    · intro fs c w m t
      refine ⟨t.1.trans (sameTables_call m.ordinary), t.2.trans ?_⟩
      show World.Handles w.1 (callObject bl O fs c w).2.1
      cases ho : w.1.objects fs with
      | some o =>
        rw [callObject_some ho]
        exact FilesystemLwext4.handles_call m.ordinary (one.sameTables_only t.1)
      | none =>
        rw [callObject_none ho]
        exact .refl
    · exact fun t => t
    · exact ⟨.refl, .refl⟩
  exact inv.2

/-- Operations that make only calls which keep files keep the file. -/
lemma holds_drives {a : Action} {w w' : World × τ}
    (d : Drives (backend bl O) (Makes (backend bl O) s a) w w')
    (keep : ∀ {fs c w}, Makes (backend bl O) s a fs c w → FilesystemLwext4.keeping c = true)
    (h : w.1.Holds k p i data) : w'.1.Holds k p i data := by
  apply d.invariant (I := fun w => w.1.Holds k p i data)
  · intro fs c w m h
    show (callObject bl O fs c w).2.1.Holds k p i data
    cases ho : w.1.objects fs with
    | some o =>
      rw [callObject_some ho]
      exact FilesystemLwext4.Holds.keeping h (keep m)
    | none =>
      rw [callObject_none ho]
      exact h
  · exact fun h => h
  · exact h

/-- The call of an open file. -/
lemma OneMount.world_invokeFopsFd (one : OneMount mp k s) {op : FdOp} {fd : Int} {r : op.Ret}
    (h : Pimpl.invokeFopsFd (backend bl O) op fd s = .ok (r, s')) :
    (s.fdContainer.byId.lookup fd = none ∧ s' = s) ∨
      ∃ fil o, s.fdContainer.byId.lookup fd = some fil ∧
        s'.world.1 = (FilesystemLwext4.callFile bl o op fil s.world.1).2 := by
  unfold Pimpl.invokeFopsFd at h
  split at h
  · rename_i hf
    cases h
    exact .inl ⟨hf, rfl⟩
  · rename_i fil hf
    have hm : s.mounts.lookup fil.root = some mp := by
      rw [(one.handles hf).1]
      exact one.lookup
    rw [hm] at h
    cases h
    obtain ⟨o, -, hc⟩ := one.call bl O
    refine .inr ⟨fil, o, hf, ?_⟩
    show ((backend bl O).call mp.fs (.file op fil) s.world).2.1 = _
    rw [hc]
    rfl

/-! ### A step -/

/-- The operations that are not looked at one by one make calls which keep files. -/
lemma keeping_of_makes {a : Action} {fs : FsId} {c : Call} {w : World × τ}
    (um : ¬ s.fdContainer.Marked p) (no : ¬ Removes p s a)
    (ho : ∀ path flags mode, a ≠ .open path flags mode)
    (hw : ∀ bytes fd, a ≠ .file (.write bytes) fd) (ht : ∀ len fd, a ≠ .file (.ftruncate len) fd)
    (m : Makes (backend bl O) s a fs c w) : FilesystemLwext4.keeping c = true := by
  cases m with
  | statVfs => rfl
  | «open» => exact absurd rfl (ho _ _ _)
  | @file op fd fil mp w =>
    cases op with
    | write bytes => exact absurd rfl (hw _ _)
    | ftruncate len => exact absurd rfl (ht _ _)
    | _ => rfl
  | @closed fd fil mp q _ _ _ _ hr _ _ =>
    -- the path unlinked is marked, so it is another one
    have ne : q ≠ p := by
      rintro rfl
      exact um (FileDescriptorContainer.marked_of_remove hr)
    exact absurd ⟨q, ne, hr⟩ no
  | @path op _ _ _ _ _ _ =>
    cases op with
    | unlink => exact absurd trivial no
    | rmdir => exact absurd trivial no
    | _ => rfl
  | rename => exact absurd trivial no
  | diropen => rfl
  | dir => rfl

/-- Writing to a standard stream leaves the volumes alone. -/
lemma world_invokeStdstreamOut (bl : BlockLayer) (O : Backend τ) (s : Pimpl (World × τ)) (fd : Int)
    (data : List UInt8) :
    (invokeStdstreamOut (backend bl O) fd data s).2.world.1 = s.world.1 := by
  unfold invokeStdstreamOut
  split
  · rfl
  · split
    · rfl
    · rfl

namespace Restored

/-- `open`, of this file or another. -/
lemma holds_open (rs : Restored mp k p since i s data) {path : Str} {flags : Flags} {mode : Int}
    {r : Reply} (h : Pimpl.open (backend bl O) path flags mode s = (r, s')) :
    s'.world.1.Holds k p i
      (dataAfter bl O k since i s (.op (.open path flags mode) r) s' data) := by
  have only : ∀ {j}, (s.world.1.sMp j).mounted = true → j = k := rs.one.only
  cases r with
  | error e =>
    have e' : s'.world.1 = s.world.1 := by
      rcases open_error_call h with e | ⟨abspath, mp', hm, hc, e⟩
      · rw [e]
      · cases rs.one.found hm
        obtain ⟨o, -, ho⟩ := rs.one.call bl O
        rw [ho] at hc e
        rw [e]
        exact FilesystemLwext4.open_failed hc
    rw [e']
    exact rs.holds
  | ok fd =>
    obtain ⟨abspath, mp', handle, -, hm, -, hc, e, -⟩ := open_ok h
    cases rs.one.found hm
    obtain ⟨o, -, ho⟩ := rs.one.call bl O
    rw [ho] at hc e
    have e' : s'.world.1 = (FilesystemLwext4.open bl mp.fs o abspath flags s.world.1).2 :=
      congrArg Prod.fst e
    show s'.world.1.Holds k p i (if trunc flags = true ∧
      s'.world.1.Refers k s.world.1.nextRaw i then [] else data)
    rw [e']
    exact FilesystemLwext4.Holds.open rs.holds hc only

/-- `write`, to this file or another, at a position inside. -/
lemma holds_write (rs : Restored mp k p since i s data) {bytes : List UInt8} {fd : Int}
    {r : Except ErrorCode Nat} {r' : Reply} (inside : WritesInside s (.file (.write bytes) fd))
    (h : write (backend bl O) fd bytes s = .ok (r, s')) :
    s'.world.1.Holds k p i
      (dataAfter bl O k since i s (.op (.file (.write bytes) fd) r') s' data) := by
  have hw := world_invokeStdstreamOut bl O s fd bytes
  rcases write_returned h with ⟨n, hn, rfl⟩ | ⟨e, he, hi⟩
  · simp only [dataAfter, hn]
    rw [hw]
    exact rs.holds
  · have q : Quiet (backend bl O) s (invokeStdstreamOut (backend bl O) fd bytes s).2 :=
      Quiet.invokeStdstreamOut
    have one : OneMount mp k (invokeStdstreamOut (backend bl O) fd bytes s).2 := by
      refine rs.one.congr (q.mounts ▸ rs.one.mounts) (hw ▸ .refl) fun {fd' fil} e => .inl ⟨fd', ?_⟩
      rwa [q.fdContainer] at e
    rcases one.world_invokeFopsFd hi with ⟨hf, rfl⟩ | ⟨fil, o, hf, e'⟩
    · rw [q.fdContainer] at hf
      simp only [dataAfter, he, hf]
      rw [hw]
      exact rs.holds
    · rw [q.fdContainer] at hf
      have e'' : s'.world.1 = (s.world.1.ext4Fwrite bl fil.raw bytes).2 := by
        rw [e', hw]
        rfl
      have hd := rs.holds.fwrite bl fil.raw bytes (inside fil hf) rs.one.only
      simp only [dataAfter, he, hf]
      rw [e'']
      split
      · exact hd
      · -- a descriptor from before the unlink refers to another file
        rename_i lt
        have hd' : World.dataWritten bl s.world.1 k fil.raw i bytes data = data := by
          unfold World.dataWritten
          split
          · exact if_neg fun h => rs.old (not_le.mp lt) h.2
          · rfl
        rwa [hd'] at hd

/-- The data after a truncation. -/
lemma holds_ftruncate (rs : Restored mp k p since i s data) {len fd : Int} {e : ErrorCode}
    {r' : Reply} (h : Pimpl.invokeFopsFd (backend bl O) (.ftruncate len) fd s = .ok (e, s')) :
    s'.world.1.Holds k p i
      (dataAfter bl O k since i s (.op (.file (.ftruncate len) fd) r') s' data) := by
  rcases rs.one.world_invokeFopsFd h with ⟨hf, rfl⟩ | ⟨fil, o, hf, e⟩
  · simp only [dataAfter, hf]
    exact rs.holds
  · have e' : s'.world.1 = (s.world.1.ext4Ftruncate fil.raw (len % 2 ^ 64).toNat).2 := by
      rw [e]
      exact congrArg Prod.snd FilesystemLwext4.ftruncate_eq
    have hd := rs.holds.ftruncate fil.raw (len % 2 ^ 64).toNat rs.one.only
    simp only [dataAfter, hf]
    rw [e']
    split
    · exact hd
    · rename_i lt
      have hd' : World.dataTruncated s.world.1 k fil.raw i (len % 2 ^ 64).toNat data = data :=
        if_neg fun h => rs.old (not_le.mp lt) h.2
      rwa [hd'] at hd

/-- What the file holds after an operation that does not affect it otherwise. -/
lemma holds_exec (rs : Restored mp k p since i s data) {a : Action} {r : Reply}
    (ha : mounting a = false) (inside : WritesInside s a) (sp : Spares k p s (.op a r) s')
    (h : Pimpl.exec (backend bl O) a s = .ok (r, s')) :
    s'.world.1.Holds k p i (dataAfter bl O k since i s (.op a r) s' data) := by
  by_cases hr : Removes p s a
  · have hd := sp.keeps rfl hr rs.holds
    cases a with
    | path op path => exact hd
    | rename old new => exact hd
    | file op fd =>
      cases op with
      | close => exact hd
      | _ => cases hr
    | _ => cases hr
  · have rest : (∀ path flags mode, a ≠ .open path flags mode) →
        (∀ bytes fd, a ≠ .file (.write bytes) fd) → (∀ len fd, a ≠ .file (.ftruncate len) fd) →
        s'.world.1.Holds k p i data := fun ho hw ht =>
      holds_drives (exec_drives ha h) (keeping_of_makes rs.unmarked hr ho hw ht) rs.holds
    cases a with
    | «open» path flags mode => exact rs.holds_open (Except.ok.inj h)
    | file op fd =>
      cases op with
      | write bytes =>
        obtain ⟨⟨r', s₁⟩, h', e⟩ := map_ok h
        cases e
        exact rs.holds_write inside h'
      | ftruncate len =>
        obtain ⟨⟨r', s₁⟩, h', e⟩ := map_ok h
        cases e
        exact rs.holds_ftruncate h'
      | _ => exact rest nofun nofun nofun
    | _ => exact rest nofun nofun nofun

end Restored

/-- No step that spares the path marks it again. -/
lemma Restored.unmarked_exec (rs : Restored mp k p since i s data)
    (norm : Path.lexicallyNormal p = p) {a : Action} {r : Reply} (ha : mounting a = false)
    (sp : Spares k p s (.op a r) s') (h : Pimpl.exec (backend bl O) a s = .ok (r, s')) :
    ¬ s'.fdContainer.Marked p := by
  intro m
  apply rs.unmarked
  cases (exec_effect h).descriptors with
  | same _ hc => rwa [hc] at m
  | opened _ _ hc =>
    rw [hc] at m
    exact m.of_insert
  | closed _ hc =>
    rw [hc] at m
    exact m.of_remove
  | marked _ hc =>
    rw [hc] at m
    refine m.of_markForUnlink ?_
    rintro rfl
    exact sp.unlink rfl norm

/-- A step that does not affect the file otherwise leaves it there, with the data it should hold. -/
theorem Restored.step (rs : Restored mp k p since i s data) (norm : Path.lexicallyNormal p = p)
    {l : Label} (ok : Ordinary l) (inside : ∀ {a r}, l = .op a r → WritesInside s a)
    (sp : Spares k p s l s') (st : Step (backend bl O) s l s') :
    Restored mp k p since i s' (dataAfter bl O k since i s l s' data) := by
  have one' := rs.one.step ok st
  cases st with
  | op _ e =>
    have hs := rs.one.handles_exec ok e
    refine ⟨one', rs.holds_exec ok (inside rfl) sp e, rs.unmarked_exec norm ok sp e, fun {raw} lt r => ?_, ?_⟩
    · exact rs.old lt (hs.refers (lt.trans_le rs.since) r)
    · exact rs.since.trans hs.nextRaw
  | rehash h =>
    have e : s'.world = s.world := by rw [h.rest]
    have um : ¬ s'.fdContainer.Marked p := fun m => rs.unmarked (m.congr h.byPath.lookup)
    refine ⟨one', ?_, um, fun {raw} lt => ?_, ?_⟩
    · rw [e]
      exact rs.holds
    · rw [e]
      exact rs.old lt
    · rw [e]
      exact rs.since
  | foreignOpen => exact ⟨one', rs.holds, rs.unmarked, rs.old, rs.since⟩
  | registerDevice => exact ⟨one', rs.holds, rs.unmarked, rs.old, rs.since⟩
  | unregisterDevice => exact ⟨one', rs.holds, rs.unmarked, rs.old, rs.since⟩

/-- A file that is opened under the condition is there from then on. -/
lemma Renewable.opened (rn : Renewable k p since s) (one : OneMount mp k s)
    (hs : since ≤ s.world.1.nextRaw) {path : Str} {flags : Flags} {mode fd : Int}
    (hp : absolutePath path = .ok p)
    (h : Pimpl.exec (backend bl O) (.open path flags mode) s = .ok (.ok fd, s')) :
    ∃ i, Restored mp k p since i s' ((s'.world.1.volume k).inodes i).data := by
  have hh := one.handles_exec rfl h
  have t := sameTables_exec rfl h
  have only : ∀ {j}, (s.world.1.sMp j).mounted = true → j = k := one.only
  obtain ⟨abspath, mp', handle, ha, hm, -, hc, hw, -, -, hfd, -⟩ := open_ok (Except.ok.inj h)
  obtain rfl : p = abspath := Except.ok.inj (hp.symm.trans ha)
  cases one.found hm
  obtain ⟨o, -, ho⟩ := one.call bl O
  rw [ho] at hc hw
  have hw : s'.world.1 = (FilesystemLwext4.open bl mp.fs o p flags s.world.1).2 :=
    congrArg Prod.fst hw
  have mount : s.world.1.getMount p = some k := by
    obtain ⟨f, hf⟩ := FilesystemLwext4.open_fopen2 hc
    obtain ⟨j, -, -, hj, -⟩ := World.fopen2_ok hf
    rw [hj, one.getMount hj]
  -- the names of a normal form are proper, but for one at the end that is empty
  have dots : ∀ n ∈ s.world.1.names p k, n ≠ Path.dot ∧ n ≠ Path.dotDot := by
    intro n hn
    rcases one.proper_names hp mount hn with rfl | proper
    · exact ⟨nofun, nofun⟩
    · exact ⟨proper.ne_dot, proper.ne_dotDot⟩
  obtain ⟨i, l, before⟩ := FilesystemLwext4.leads_open rn.inUse hc only dots
  refine ⟨i, one.exec rfl h, ⟨?_, rfl⟩, fun m => ?_, fun {raw} lt r => ?_, hs.trans hh.nextRaw⟩
  · rw [hw, ← hw, t.names, hw]
    exact l
  · rw [hfd] at m
    exact rn.unmarked m.of_insert
  · obtain ⟨hmp, rfl⟩ := hh.refers (lt.trans_le hs) r
    rcases before with free | l
    · rw [rn.filesInUse (lt.trans_le hs) hmp] at free
      cases free
    · exact rn.apart lt hmp l

/-! ### Runs -/

/-- A step of a run in which no unlink, rename or rmdir affects the file, with the account of what
it is to hold. -/
def Followed (bl : BlockLayer) (O : Backend τ) (k : Fin 4) (p : Str) (since : Nat) (i : Ino)
    (x : Pimpl (World × τ) × List UInt8) (l : Label) (y : Pimpl (World × τ) × List UInt8) : Prop :=
  Step (backend bl O) x.1 l y.1 ∧ Spares k p x.1 l y.1 ∧
    y.2 = dataAfter bl O k since i x.1 l y.1 x.2

end Pimpl
end Evfs
