import Evfs.Common.VfsStep

/-!
# The calls of an operation

`Makes` says which method calls an operation that neither mounts nor unmounts makes, and on which
world; `exec_drives` that the world below changes by such calls only. What is to hold of a world in
every session is then shown for the calls.
-/

namespace Evfs
open Lib
namespace Pimpl
variable {σ : Type} (B : Backend σ)

/-- A method call that satisfies `Q`, or a call of the standard stream. -/
inductive WorldStep (Q : FsId → Call → σ → Prop) : σ → σ → Prop where
  | call {fs c w} : Q fs c w → WorldStep Q w (B.call fs c w).2
  | stream {op w} : WorldStep Q w (B.stream op w).2

/-- Any number of such calls. -/
abbrev Drives (Q : FsId → Call → σ → Prop) : σ → σ → Prop := Relation.ReflTransGen (WorldStep B Q)

/-- The operations that mount or unmount. -/
def mounting : Action → Bool
  | .mountAll => true
  | .mount _ _ _ _ => true
  | .umountAll => true
  | .umount _ => true
  | _ => false

/-- The method calls of an operation, each with the world it is made on. -/
inductive Makes (s : Pimpl σ) : Action → FsId → Call → σ → Prop where
  | statVfs {a fs path w} : (a = .statParts ∨ ∃ p, a = .statPartsOf p) →
    Makes s a fs (.path .statVfs path) w
  | open {path flags mode abspath mp} : absolutePath path = .ok abspath →
    findMountPoint s.mounts abspath = some mp →
    ¬ (wantsWrite flags && mp.flags.test MountFlags.readOnly) = true →
    Makes s (.open path flags mode) mp.fs (.open abspath flags mode) s.world
  | file {op fd fil mp w} : s.fdContainer.byId.lookup fd = some fil →
    s.mounts.lookup fil.root = some mp → Drives B (fun _ _ _ => False) s.world w →
    Makes s (.file op fd) mp.fs (.file op fil) w
  /-- The deferred unlink. -/
  | closed {fd fil mp path abspath mp'} : s.fdContainer.byId.lookup fd = some fil →
    s.mounts.lookup fil.root = some mp → (s.fdContainer.remove fd).1 = some path →
    absolutePath path = .ok abspath → findMountPoint s.mounts abspath = some mp' →
    Makes s (.file .close fd) mp'.fs (.path .unlink abspath)
      (B.call mp.fs (.file .close fil) s.world).2
  | path {op path abspath mp} : absolutePath path = .ok abspath →
    findMountPoint s.mounts abspath = some mp → (op = .unlink → path ∉ s.fdContainer.byPath) →
    Makes s (.path op path) mp.fs (.path op abspath) s.world
  | rename {path path2 abspath abspath2 mp} : absolutePath path = .ok abspath →
    absolutePath path2 = .ok abspath2 → findMountPoint s.mounts abspath = some mp →
    ¬ mp.flags.test MountFlags.readOnly = true →
    Makes s (.rename path path2) mp.fs (.rename abspath abspath2) s.world
  | diropen {path abspath mp} : absolutePath path = .ok abspath →
    findMountPoint s.mounts abspath = some mp →
    Makes s (.diropen path) mp.fs (.diropen abspath) s.world
  | dir {op handle mp} : s.mounts.lookup handle.root = some mp →
    Makes s (.dir op handle) mp.fs (.dir op handle) s.world

section Drives
variable {B} {s s' : Pimpl σ} {Q Q' : FsId → Call → σ → Prop} {w w' : σ}

/-- An invariant of the calls is an invariant of what they drive. -/
lemma Drives.invariant {I : σ → Prop} (d : Drives B Q w w')
    (call : ∀ {fs c w}, Q fs c w → I w → I (B.call fs c w).2)
    (stream : ∀ {op w}, I w → I (B.stream op w).2) (h : I w) : I w' := by
  induction d with
  | refl => exact h
  | tail _ st ih =>
    cases st with
    | call q => exact call q ih
    | stream => exact stream ih

/-- A call under the mount's lock. -/
lemma drives_lockedCall {mp : MountPoint} {c : Call} (q : Q mp.fs c s.world) :
    Drives B Q s.world (lockedCall B mp c s).2.world := .single (.call q)

/-- A call on a descriptor goes to the mount of its file. -/
lemma drives_invokeFopsFd {op : FdOp} {fd : Int} {r : op.Ret}
    (e : invokeFopsFd B op fd s = .ok (r, s'))
    (q : ∀ {fil mp}, s.fdContainer.byId.lookup fd = some fil →
      s.mounts.lookup fil.root = some mp → Q mp.fs (.file op fil) s.world) :
    Drives B Q s.world s'.world := by
  unfold invokeFopsFd at e
  split at e
  · cases e
    exact .refl
  · rename_i fil hf
    split at e
    · cases e
    · rename_i mp hm
      cases e
      exact drives_lockedCall (q hf hm)

/-- A call on a path goes to the mount found for it. -/
lemma drives_invokeFopsPath {op : PathOp} {path : Str}
    (q : ∀ {abspath mp}, absolutePath path = .ok abspath →
      findMountPoint s.mounts abspath = some mp → Q mp.fs (.path op abspath) s.world) :
    Drives B Q s.world (invokeFopsPath B op path s).2.world := by
  unfold invokeFopsPath
  split
  · exact .refl
  · split
    · exact .refl
    · rename_i abspath ha
      split
      · exact .refl
      · rename_i mp hm
        exact drives_lockedCall (q ha hm)

/-- The loop of `stat_vfs` asks the mounts only. -/
lemma drives_statLoop {l : List (Σ _ : Str, MountPoint)}
    (q : ∀ {fs path w}, Q fs (.path .statVfs path) w) :
    Drives B Q s.world (statLoop B l s).2.world := by
  induction l generalizing s with
  | nil => exact .refl
  | cons e l ih =>
    have d : Drives B Q s.world (getMountPointStats B e.2 s).2.world := drives_lockedCall q
    exact d.trans ih

/-- The calls of `rename`. -/
lemma drives_rename {path path2 : Str} :
    Drives B (Makes B s (.rename path path2)) s.world (rename B path path2 s).2.world := by
  unfold rename
  split
  · exact .refl
  · split
    · exact .refl
    · rename_i abspath ha
      split
      · exact .refl
      · rename_i abspath2 ha2
        split
        · exact .refl
        · split
          · exact .refl
          · rename_i mp hm
            split
            · exact .refl
            · rename_i hr
              exact drives_lockedCall (.rename ha ha2 hm hr)

/-- The calls of `open`. -/
lemma drives_open {path : Str} {flags : Flags} {mode : Int} :
    Drives B (Makes B s (.open path flags mode)) s.world
      (Pimpl.open B path flags mode s).2.world := by
  cases h : Pimpl.open B path flags mode s with
  | mk r s' =>
    rcases open_cases h with ⟨-, -, hw, -⟩ | ⟨abspath, mp, ha, hm, hr, ho⟩
    · rw [hw]
    · have d : Drives B (Makes B s (.open path flags mode)) s.world
          (lockedCall B mp (.open abspath flags mode) s).2.world :=
        drives_lockedCall (.open ha hm hr)
      rcases ho with ⟨e, -, -, rfl⟩ | ⟨handle, -, -, rfl⟩
      · exact d
      · exact d

/-- The calls of `diropen`. -/
lemma drives_diropen {path : Str} :
    Drives B (Makes B s (.diropen path)) s.world (diropen B path s).2.world := by
  unfold diropen
  split
  · exact .refl
  · rename_i abspath ha
    split
    · exact .refl
    · rename_i mp hm
      have d : Drives B (Makes B s (.diropen path)) s.world
          (lockedCall B mp (.diropen abspath) s).2.world := drives_lockedCall (.diropen ha hm)
      split
      · rename_i h
        rwa [h] at d
      · rename_i h
        rwa [h] at d

/-- `close` calls `close` and, for the last descriptor of a marked path, then `unlink`. -/
lemma drives_close {fd : Int} {e : ErrorCode} (h : close B fd s = .ok (e, s')) :
    Drives B (Makes B s (.file .close fd)) s.world s'.world := by
  rcases close_cases h with ⟨-, rfl⟩ | ⟨fil, mp, hf, hm, hr⟩
  · exact .refl
  · have d : Drives B (Makes B s (.file .close fd)) s.world (afterRemove B s fd fil mp).world :=
      drives_lockedCall (.file hf hm .refl)
    rcases hr with ⟨-, -, rfl⟩ | ⟨path, hp, hs⟩
    · exact d
    · obtain rfl := congrArg Prod.snd hs
      exact d.trans (drives_invokeFopsPath fun ha hm' => .closed hf hm hp ha hm')

/-- The calls of `write`, its seek included. -/
lemma drives_write {fd : Int} {data : List UInt8} {r : Except ErrorCode Nat}
    (e : write B fd data s = .ok (r, s')) :
    Drives B (Makes B s (.file (.write data) fd)) s.world s'.world := by
  have q : Quiet B s (invokeStdstreamOut B fd data s).2 := Quiet.invokeStdstreamOut
  have d : ∀ Q, Drives B Q s.world (invokeStdstreamOut B fd data s).2.world := by
    intro Q
    unfold invokeStdstreamOut
    repeat' split
    all_goals first | exact .single .stream | exact .refl
  unfold write at e
  split at e
  · rename_i h
    cases e
    rw [h] at d
    exact d _
  · rename_i h
    rw [h] at q d
    exact (d _).trans (drives_invokeFopsFd e fun hf hm =>
      .file (q.fdContainer ▸ hf) (q.mounts ▸ hm) (d _))

/-- The calls of `read`. -/
lemma drives_read {fd : Int} {len : Nat} {r : Except ErrorCode Nat × List UInt8}
    (e : read B fd len s = .ok (r, s')) :
    Drives B (Makes B s (.file (.read len) fd)) s.world s'.world := by
  have q : Quiet B s (invokeStdstreamIn B fd len s).2 := Quiet.invokeStdstreamIn
  have d : ∀ Q, Drives B Q s.world (invokeStdstreamIn B fd len s).2.world := by
    intro Q
    unfold invokeStdstreamIn
    split
    · exact .single .stream
    · exact .refl
  unfold read at e
  split at e
  · rename_i h
    cases e
    rw [h] at d
    exact d _
  · rename_i h
    rw [h] at q d
    exact (d _).trans (drives_invokeFopsFd e fun hf hm =>
      .file (q.fdContainer ▸ hf) (q.mounts ▸ hm) (d _))

/-- The calls of an operation on a descriptor. -/
lemma drives_fileOp {op : FdOp} {fd : Int} {r : op.Ret} (h : fileOp B op fd s = .ok (r, s')) :
    Drives B (Makes B s (.file op fd)) s.world s'.world := by
  cases op with
  | close => exact drives_close h
  | write data => exact drives_write h
  | read len => exact drives_read h
  | fstat =>
    simp only [fileOp, fstat] at h
    split at h
    · cases h; exact .refl
    · exact drives_invokeFopsFd h fun hf hm => .file hf hm .refl
  | isatty =>
    simp only [fileOp, isatty] at h
    split at h
    · cases h; exact .refl
    · exact drives_invokeFopsFd h fun hf hm => .file hf hm .refl
  | lseek _ _ => exact drives_invokeFopsFd h fun hf hm => .file hf hm .refl
  | ftruncate _ => exact drives_invokeFopsFd h fun hf hm => .file hf hm .refl
  | fsync => exact drives_invokeFopsFd h fun hf hm => .file hf hm .refl
  | flock _ => exact drives_invokeFopsFd h fun hf hm => .file hf hm .refl
  | fchmod _ => exact drives_invokeFopsFd h fun hf hm => .file hf hm .refl

/-- The calls of an operation on a path. -/
lemma drives_pathOp {op : PathOp} {path : Str} :
    Drives B (Makes B s (.path op path)) s.world (pathOp B op path s).2.world := by
  cases op with
  | unlink =>
    show Drives B _ _ (unlink B path s).2.world
    unfold unlink
    split
    · exact .refl
    · rename_i h
      exact drives_invokeFopsPath fun ha hm => .path ha hm fun _ => h
  | _ => exact drives_invokeFopsPath fun ha hm => .path ha hm nofun

/-- The calls of an operation on a directory handle. -/
lemma drives_dirOp {op : DirOp} {handle : DirectoryHandle} {r : op.Ret}
    (h : dirOp B op handle s = .ok (r, s')) :
    Drives B (Makes B s (.dir op handle)) s.world s'.world := by
  have inv : ∀ {s₁ : Pimpl σ} {r : op.Ret}, invokeDirops B op handle s = .ok (r, s₁) →
      Drives B (Makes B s (.dir op handle)) s.world s₁.world := by
    intro s₁ r e
    unfold invokeDirops at e
    split at e
    · cases e
    · rename_i hm
      cases e
      exact drives_lockedCall (.dir hm)
  cases op with
  | dirclose =>
    simp only [dirOp, dirclose] at h
    split at h
    · cases h
    · rename_i hi
      have d := inv hi
      cases h
      exact d
  | dirreset => exact inv h
  | dirnext => exact inv h

/-- An operation that neither mounts nor unmounts changes the world by its calls only. -/
theorem exec_drives {a : Action} {r : Reply} (ha : mounting a = false)
    (h : exec B a s = .ok (r, s')) : Drives B (Makes B s a) s.world s'.world := by
  cases a with
  | registerFilesystem type =>
    cases h
    unfold registerFilesystem
    split <;> exact .refl
  | registerFactory type factory =>
    cases h
    unfold registerFilesystem
    split <;> exact .refl
  | unregisterFilesystem type =>
    cases h
    unfold unregisterFilesystem
    split <;> exact .refl
  | mountAll => cases ha
  | mount => cases ha
  | umountAll => cases ha
  | umount => cases ha
  | getRoots => cases h; exact .refl
  | statParts => cases h; exact drives_statLoop (.statVfs (.inl rfl))
  | statPartsOf path =>
    cases h
    unfold statPartsOf
    split
    · exact .refl
    · exact drives_lockedCall (.statVfs (.inr ⟨_, rfl⟩))
  | «open» path flags mode =>
    have e : Pimpl.open B path flags mode s = (r, s') := Except.ok.inj h
    have he : (Pimpl.open B path flags mode s).2 = s' := congrArg Prod.snd e
    exact he ▸ drives_open
  | file op fd =>
    obtain ⟨⟨r', s₁⟩, h', e'⟩ := map_ok h
    cases e'
    exact drives_fileOp h'
  | path op path => cases h; exact drives_pathOp
  | rename oldname newname => cases h; exact drives_rename
  | diropen path => cases h; exact drives_diropen
  | dir op handle =>
    obtain ⟨⟨r', s₁⟩, h', e'⟩ := map_ok h
    cases e'
    exact drives_dirOp h'

/-- An operation that neither mounts nor unmounts leaves the mount table alone. -/
lemma mounts_exec {a : Action} {r : Reply} (ha : mounting a = false)
    (h : exec B a s = .ok (r, s')) : s'.mounts = s.mounts := by
  cases exec_effect h with
  | quiet q => exact q.mounts
  | factories => rfl
  | mounted => cases ha
  | mountedAll => cases ha
  | unmounted => cases ha
  | unmountedAll => cases ha
  | opened _ _ _ _ q => exact q.mounts
  | closed _ q q' => exact q'.mounts.trans q.mounts
  | marked => rfl
  | diropened _ _ _ _ q => exact q.mounts
  | dirclosed q => exact q.mounts

/-- An `open` that returns a descriptor: the call it made and the table after it. -/
lemma open_ok {path : Str} {flags : Flags} {mode fd : Int}
    (h : Pimpl.open B path flags mode s = (.ok fd, s')) :
    ∃ abspath mp handle, absolutePath path = .ok abspath ∧
      findMountPoint s.mounts abspath = some mp ∧
      ¬ (wantsWrite flags && mp.flags.test MountFlags.readOnly) = true ∧
      (B.call mp.fs (.open abspath flags mode) s.world).1 = .ok handle ∧
      s'.world = (B.call mp.fs (.open abspath flags mode) s.world).2 ∧ fd = s.idx ∧
      s'.mounts = s.mounts ∧ s'.fdContainer = s.fdContainer.insert s.idx path handle ∧
      s'.idx = nextIdx s.idx := by
  rcases open_cases h with ⟨⟨e, hr⟩, -⟩ | ⟨abspath, mp, ha, hm, hr, ⟨e, -, he, -⟩ | ho⟩
  · cases hr
  · cases he
  · obtain ⟨handle, hc, he, rfl⟩ := ho
    exact ⟨abspath, mp, handle, ha, hm, hr, hc, rfl, Except.ok.inj he, rfl, rfl, rfl⟩

/-- A `rename` that succeeds: the call it made, and nothing else. -/
lemma rename_ok {path path2 : Str} (h : rename B path path2 s = (0, s')) :
    ∃ abspath abspath2 mp, absolutePath path = .ok abspath ∧ absolutePath path2 = .ok abspath2 ∧
      findMountPoint s.mounts abspath = some mp ∧ ¬ mp.flags.test MountFlags.readOnly = true ∧
      (B.call mp.fs (.rename abspath abspath2) s.world).1 = 0 ∧
      s'.world = (B.call mp.fs (.rename abspath abspath2) s.world).2 := by
  unfold rename at h
  split at h
  · exact absurd h (by simp)
  · split at h
    · rename_i ha
      unfold absolutePath at ha
      split at ha <;> cases ha
      exact absurd h (by simp)
    · rename_i abspath ha
      split at h
      · rename_i ha
        unfold absolutePath at ha
        split at ha <;> cases ha
        exact absurd h (by simp)
      · rename_i abspath2 ha2
        split at h
        · exact absurd h (by simp)
        · split at h
          · exact absurd h (by simp)
          · rename_i mp hm
            split at h
            · exact absurd h (by simp)
            · rename_i hr
              have e₁ : (lockedCall B mp (.rename abspath abspath2) s).1 = 0 := congrArg Prod.fst h
              have e₂ : (lockedCall B mp (.rename abspath abspath2) s).2 = s' := congrArg Prod.snd h
              exact ⟨abspath, abspath2, mp, ha, ha2, hm, hr, e₁, e₂ ▸ rfl⟩

/-- An `open` that returns no descriptor leaves the tables alone. -/
lemma open_error {path : Str} {flags : Flags} {mode : Int} {e : ErrorCode}
    (h : Pimpl.open B path flags mode s = (.error e, s')) : Quiet B s s' := by
  rcases open_cases h with ⟨-, q, -⟩ | ⟨abspath, mp, -, -, -, ⟨e, -, -, rfl⟩ | ⟨handle, -, he, -⟩⟩
  · exact q
  · exact Quiet.lockedCall nofun
  · cases he

/-- An `open` that returns no descriptor called nothing, or the call failed. -/
lemma open_error_call {path : Str} {flags : Flags} {mode : Int} {e : ErrorCode}
    (h : Pimpl.open B path flags mode s = (.error e, s')) : s'.world = s.world ∨
      ∃ abspath mp, findMountPoint s.mounts abspath = some mp ∧
        (B.call mp.fs (.open abspath flags mode) s.world).1 = .error e ∧
        s'.world = (B.call mp.fs (.open abspath flags mode) s.world).2 := by
  rcases open_cases h with ⟨-, -, hw, -⟩ | ⟨abspath, mp, -, hm, -, ⟨e', hc, he, rfl⟩ | ho⟩
  · exact .inl hw
  · cases he
    exact .inr ⟨abspath, mp, hm, hc, rfl⟩
  · obtain ⟨handle, -, he, -⟩ := ho
    cases he

/-- An `open` calls the method where the checks let it, and nothing otherwise. -/
lemma world_open {path : Str} {flags : Flags} {mode : Int} {r : Except ErrorCode Int}
    (h : Pimpl.open B path flags mode s = (r, s')) :
    (s'.world = s.world ∧ ∀ {abspath mp}, absolutePath path = .ok abspath →
        findMountPoint s.mounts abspath = some mp →
        (wantsWrite flags && mp.flags.test MountFlags.readOnly) = true) ∨
      ∃ abspath mp, absolutePath path = .ok abspath ∧
        findMountPoint s.mounts abspath = some mp ∧
        ¬ (wantsWrite flags && mp.flags.test MountFlags.readOnly) = true ∧
        s'.world = (B.call mp.fs (.open abspath flags mode) s.world).2 := by
  rcases open_cases h with ⟨-, -, hw, no⟩ | ⟨abspath, mp, ha, hm, hr, ho⟩
  · exact .inl ⟨hw, no⟩
  · refine .inr ⟨abspath, mp, ha, hm, hr, ?_⟩
    rcases ho with ⟨e, -, -, rfl⟩ | ⟨handle, -, -, rfl⟩
    · rfl
    · rfl

/-- A `close` that makes up for no unlink returns what the method does, or finds no such file. -/
lemma close_returned {fd : Int} {e : ErrorCode} (h : close B fd s = .ok (e, s'))
    (keep : (s.fdContainer.remove fd).1 = none) :
    (s.fdContainer.byId.lookup fd = none ∧ s'.world = s.world) ∨
      ∃ fil mp, s.fdContainer.byId.lookup fd = some fil ∧ s.mounts.lookup fil.root = some mp ∧
        e = (B.call mp.fs (.file .close fil) s.world).1 ∧
        s'.world = (B.call mp.fs (.file .close fil) s.world).2 := by
  rcases close_cases h with ⟨hf, rfl⟩ | ⟨fil, mp, hf, hm, ⟨-, he, rfl⟩ | ⟨path, hp, -⟩⟩
  · exact .inl ⟨hf, rfl⟩
  · exact .inr ⟨fil, mp, hf, hm, he, rfl⟩
  · rw [keep] at hp
    cases hp

/-- A `write` that returns is one to the standard stream, or one to the open file. -/
lemma write_returned {fd : Int} {data : List UInt8} {r : Except ErrorCode Nat}
    (h : write B fd data s = .ok (r, s')) :
    (∃ n, (invokeStdstreamOut B fd data s).1 = .ok n ∧ s' = (invokeStdstreamOut B fd data s).2) ∨
      ∃ e, (invokeStdstreamOut B fd data s).1 = .error e ∧
        invokeFopsFd B (.write data) fd (invokeStdstreamOut B fd data s).2 = .ok (r, s') := by
  unfold write at h
  split at h
  · rename_i n s₁ hi
    cases h
    exact .inl ⟨n, congrArg Prod.fst hi, (congrArg Prod.snd hi).symm⟩
  · rename_i e s₁ hi
    refine .inr ⟨e, congrArg Prod.fst hi, ?_⟩
    rw [hi]
    exact h

end Drives

end Pimpl
end Evfs
