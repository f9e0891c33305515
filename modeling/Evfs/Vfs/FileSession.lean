import Evfs.Fstypes.OpenFile
import Evfs.Lib.Simulation
import Evfs.Vfs.OneMount

/-!
# Sessions with open files

The descriptors of a `VirtualFS` with one mount are open files in the sense of `Lib.OpenFiles`, the
files being the inodes of the volume. In a session that frees no inode every operation does to them
what its answer says (`Filed.step`), whatever else happens on the mount: reads, writes, seeks and
truncations go through three tables to the file that was opened, and to no other.
-/

namespace Evfs
open Lib Lwext4
namespace Pimpl
variable {σ τ : Type}

/-- The files of the volume in the slot and the descriptors. -/
def files (k : Fin 4) (s : Pimpl (World × τ)) : Files Ino Int where
  readOnly := (s.world.1.sMp k).readOnly
  data := (s.world.1.volume k).content
  opened fd := (s.fdContainer.byId.lookup fd).map fun fil => s.world.1.openFile fil.raw

/-- Every descriptor has an open file of its own, which is a file in use on a sound volume. -/
structure Filed (mp : MountPoint) (k : Fin 4) (s : Pimpl (World × τ)) : Prop where
  one : OneMount mp k s
  sound : (s.world.1.volume k).Sound
  live {fd fil} : s.fdContainer.byId.lookup fd = some fil → s.world.1.Live k fil.raw
  below {fd fil} : s.fdContainer.byId.lookup fd = some fil → fil.raw < s.world.1.nextRaw
  apart {fd fd' fil fil'} : s.fdContainer.byId.lookup fd = some fil →
    s.fdContainer.byId.lookup fd' = some fil' → fil.raw = fil'.raw → fd = fd'

/-! ### Steps -/

/-- What is done in a session: an operation on a descriptor with all that it returns, or something
else. -/
inductive Did where
  | file (op : FdOp) (fd : Int) (r : op.Ret)
  | rest (l : Label)

/-- Nothing is mounted and no inode is freed: what is unlinked has a descriptor still. The next
descriptor is a new one, and the standard streams are not open as files. -/
def FreesNone (s : Pimpl σ) : Label → Prop
  | .op (.file _ fd) _ => fd < 3 ∧ fd ∉ s.fdContainer.byId
  | .op (.open _ _ _) _ => s.idx ∉ s.fdContainer.byId
  | .op (.path .unlink path) _ => path ∈ s.fdContainer.byPath
  | .op (.path .rmdir _) _ => False
  | .op a _ => mounting a = false
  | _ => True

/-- A `write` does not start, and a relative seek is not made, behind the end of the file. There
`ext4_fwrite` writes to a block that need not be one of the file, and `ext4_fseek` takes what is left of
the file for a huge number. -/
structure PlacedInside (s : Pimpl (World × τ)) (op : FdOp) (fd : Int) : Prop where
  write : WritesInside s (.file op fd)
  seek {pos fil} : op = .lseek pos 1 → s.fdContainer.byId.lookup fd = some fil →
    s.world.1.SeenInside fil.raw

/-- A step of a session. No `close` removes a file. -/
inductive FileStep (B : Backend (World × τ)) : Pimpl (World × τ) → Did → Pimpl (World × τ) → Prop where
  | file {s op fd r s'} : 3 ≤ fd → (op = .close → (s.fdContainer.remove fd).1 = none) →
    PlacedInside s op fd → fileOp B op fd s = .ok (r, s') → FileStep B s (.file op fd r) s'
  | rest {s l s'} : FreesNone s l → Step B s l s' → FileStep B s (.rest l) s'

/-- The request that an operation on a descriptor makes. -/
def request : FdOp → Option Request
  | .read len => some (.read len)
  | .write data => some (.write data)
  | .lseek pos dir => some (.seek pos (World.origin dir))
  | .ftruncate len => some (.truncate (len % 2 ^ 64).toNat)
  | _ => none

/-- The answer to it. -/
def answer : (op : FdOp) → op.Ret → Answer
  | .read _, r => World.readAnswer r
  | .write _, r => World.writeAnswer r
  | .lseek _ _, .ok pos => .moved pos.toNat
  | .lseek _ _, .error _ => .refused
  | .ftruncate _, e => if e = 0 then .done else .refused
  | _, _ => .done

/-- How `open` opens a file. -/
def openMode (flags : Flags) : OpenMode where
  readable := !wronly flags
  writable := !rdonly flags
  cut := trunc flags
  atEnd := append flags

/-- What a step does to open files. -/
inductive Shows : Did → Option (FileEvent Ino Int) → Prop where
  | serve {op fd r req} : request op = some req →
    Shows (.file op fd r) (some (.serve fd req (answer op r)))
  | close {fd r} : Shows (.file .close fd r) (some (.close fd))
  | other {op fd r} : request op = none → op ≠ .close → Shows (.file op fd r) none
  | open {path flags mode fd i} : Shows (.rest (.op (.open path flags mode) (.ok fd)))
    (some (.open fd i (openMode flags)))
  | rest {l} : (∀ path flags mode fd, l ≠ .op (.open path flags mode) (.ok fd)) →
    Shows (.rest l) none

variable {bl : BlockLayer} {O : Backend τ} {s s' : Pimpl (World × τ)} {mp : MountPoint}
  {k : Fin 4}

/-! ### Steps that leave open files alone -/

/-- What makes no difference to open files. -/
structure Still (k : Fin 4) (w w' : World) : Prop where
  tables : SameTables w w'
  keeps : Volume.Keeps (w.volume k) (w'.volume k)
  files : w'.files = w.files
  nextRaw : w.nextRaw ≤ w'.nextRaw

lemma Still.refl {w : World} (h : (w.volume k).Sound) : Still k w w :=
  ⟨.refl, .refl h, rfl, le_rfl⟩

lemma Still.trans {w w' w'' : World} (st : Still k w w') (st' : Still k w' w'') : Still k w w'' :=
  ⟨st.tables.trans st'.tables, st.keeps.trans st'.keeps, st'.files.trans st.files,
    st.nextRaw.trans st'.nextRaw⟩

/-- A live file stays live. -/
lemma Live.still {w w' : World} {raw : Nat} (l : w.Live k raw) (st : Still k w w') :
    w'.Live k raw where
  mounted := st.tables.sMp ▸ l.mounted
  mp := st.files ▸ l.mp
  used := st.files ▸ st.keeps.used l.used
  regFile := by
    rw [st.files, st.keeps.type l.used]
    exact l.regFile

/-- Open files stay as they are. -/
lemma Filed.still (fl : Filed mp k s) (one : OneMount mp k s')
    (hf : ∀ fd, s'.fdContainer.byId.lookup fd = s.fdContainer.byId.lookup fd)
    (st : Still k s.world.1 s'.world.1) : Filed mp k s' ∧ files k s' = files k s := by
  refine ⟨⟨one, st.keeps.sound, fun {fd fil} e => ?_, fun {fd fil} e => ?_,
    fun {fd fd' fil fil'} e e' => ?_⟩, ?_⟩
  · rw [hf] at e
    exact Live.still (fl.live e) st
  · rw [hf] at e
    exact (fl.below e).trans_le st.nextRaw
  · rw [hf] at e e'
    exact fl.apart e e'
  · have ho : ∀ raw, s'.world.1.openFile raw = s.world.1.openFile raw := fun raw => by
      simp only [World.openFile, st.files]
    simp only [files, hf, ho, st.keeps.content, st.tables.sMp]

/-- Calls that preserve files and open none leave everything as it is. -/
lemma Filed.drives (fl : Filed mp k s) {a : Action} {w : World × τ}
    (d : Drives (backend bl O) (Makes (backend bl O) s a) s.world w)
    (calls : ∀ {fs c w}, Makes (backend bl O) s a fs c w →
      FilesystemLwext4.preserving c = true ∧ FilesystemLwext4.moving c = false) :
    Still k s.world.1 w.1 := by
  apply d.invariant (I := fun w => Still k s.world.1 w.1)
  · intro fs c w m st
    obtain ⟨hp, hm⟩ := calls m
    have hc : FilesystemLwext4.mounting c = false := m.ordinary
    have only : ∀ {j}, (w.1.sMp j).mounted = true → j = k := fun h =>
      fl.one.only (by rwa [st.tables.sMp] at h)
    refine st.trans ?_
    show Still k w.1 (callObject bl O fs c w).2.1
    cases ho : w.1.objects fs with
    | some o =>
      rw [callObject_some ho]
      exact ⟨FilesystemLwext4.confined_call bl fs o hc,
        FilesystemLwext4.keeps_call hp only st.keeps.sound, FilesystemLwext4.files_call hc hm,
        (FilesystemLwext4.handles_call hc only).nextRaw⟩
    | none =>
      rw [callObject_none ho]
      exact .refl st.keeps.sound
  · exact id
  · exact .refl fl.sound

/-- The calls of a step that opens nothing preserve the files. -/
lemma FreesNone.calls {σ : Type} {B : Backend σ} {s : Pimpl σ} {a : Action} {r : Reply} {fs : FsId}
    {c : Call} {w : σ} (ok : FreesNone s (.op a r)) (no : ∀ path flags mode, a ≠ .open path flags mode)
    (m : Makes B s a fs c w) :
    FilesystemLwext4.preserving c = true ∧ FilesystemLwext4.moving c = false := by
  cases m with
  | statVfs => exact ⟨rfl, rfl⟩
  | «open» => exact absurd rfl (no _ _ _)
  | file hf => exact absurd (UnorderedMap.mem_of_lookup hf) ok.2
  | closed hf => exact absurd (UnorderedMap.mem_of_lookup hf) ok.2
  | @path op _ _ _ _ _ hu =>
    cases op with
    | unlink => exact absurd ok (hu rfl)
    | rmdir => exact ok.elim
    | _ => exact ⟨rfl, rfl⟩
  | rename => exact ⟨rfl, rfl⟩
  | diropen => exact ⟨rfl, rfl⟩
  | dir => exact ⟨rfl, rfl⟩

/-- The open files stay open. -/
lemma FreesNone.byId {σ : Type} {B : Backend σ} {s s' : Pimpl σ} {a : Action} {r : Reply}
    (ok : FreesNone s (.op a r)) (no : ∀ path flags mode, a ≠ .open path flags mode)
    (h : exec B a s = .ok (r, s')) : s'.fdContainer.byId = s.fdContainer.byId := by
  cases (exec_effect h).descriptors with
  | same _ hc => rw [hc]
  | opened => exact absurd rfl (no _ _ _)
  | closed _ hc => rw [hc, FileDescriptorContainer.remove_of_notMem ok.2]
  | marked _ hc => rw [hc, FileDescriptorContainer.byId_markForUnlink]

/-- An `open` that fails does nothing. -/
lemma OneMount.open_error (one : OneMount mp k s) {path : Str} {flags : Flags} {mode : Int}
    {e : ErrorCode} (h : Pimpl.open (backend bl O) path flags mode s = (.error e, s')) :
    s'.world = s.world := by
  rcases open_error_call h with hw | ⟨abspath, mp', hm, hc, hw⟩
  · exact hw
  · cases one.found hm
    obtain ⟨o, -, ho⟩ := one.call bl O
    rw [ho] at hc hw
    rw [hw, ← Prod.mk.eta (p := s.world)]
    exact congrArg (·, s.world.2) (FilesystemLwext4.open_failed hc)

/-- A step that frees and opens no file leaves the open files as they are. -/
lemma Filed.quiet (fl : Filed mp k s) {l : Label} (ok : FreesNone s l)
    (no : ∀ path flags mode fd, l ≠ .op (.open path flags mode) (.ok fd))
    (st : Step (backend bl O) s l s') : Filed mp k s' ∧ files k s' = files k s := by
  have ord : Ordinary l := by
    cases l with
    | op a r =>
      cases a with
      | path op path => rfl
      | file op fd => rfl
      | «open» path flags mode => rfl
      | _ => exact ok
    | _ => trivial
  have one := fl.one.step ord st
  cases st with
  | @op a r _ _ e =>
    by_cases ho : ∃ path flags mode, a = .open path flags mode
    · obtain ⟨path, flags, mode, rfl⟩ := ho
      cases r with
      | ok fd => exact absurd rfl (no _ _ _ _)
      | error e' =>
        have e : Pimpl.open (backend bl O) path flags mode s = (.error e', s') := Except.ok.inj e
        refine fl.still one (fun fd => by rw [(Pimpl.open_error e).fdContainer]) ?_
        rw [fl.one.open_error e]
        exact .refl fl.sound
    · have no' : ∀ path flags mode, a ≠ .open path flags mode := fun _ _ _ h => ho ⟨_, _, _, h⟩
      refine fl.still one (fun fd => by rw [ok.byId no' e]) ?_
      exact fl.drives (exec_drives ord e) fun m => ok.calls no' m
  | rehash h =>
    refine fl.still one (fun fd => h.byId.lookup fd) ?_
    have e : s'.world = s.world := by rw [h.rest]
    rw [e]
    exact .refl fl.sound
  | foreignOpen => exact fl.still one (fun _ => rfl) (.refl fl.sound)
  | registerDevice => exact fl.still one (fun _ => rfl) (.refl fl.sound)
  | unregisterDevice => exact fl.still one (fun _ => rfl) (.refl fl.sound)

/-! ### Steps on open files -/

/-- An open file that is left alone. -/
lemma opened_congr {fd : Int}
    (hl : s'.fdContainer.byId.lookup fd = s.fdContainer.byId.lookup fd)
    (hf : ∀ {fil}, s.fdContainer.byId.lookup fd = some fil →
      s'.world.1.files fil.raw = s.world.1.files fil.raw) :
    (files k s').opened fd = (files k s).opened fd := by
  simp only [files, hl]
  cases e : s.fdContainer.byId.lookup fd with
  | none => rfl
  | some fil => simp only [Option.map_some, World.openFile, hf e]

/-- Descriptors keep their files, and the next one may get a new file. -/
lemma Filed.step (fl : Filed mp k s) (one : OneMount mp k s') (sound : (s'.world.1.volume k).Sound)
    (retains : Volume.Retains (s.world.1.volume k) (s'.world.1.volume k))
    (nextRaw : s.world.1.nextRaw ≤ s'.world.1.nextRaw)
    (hl : ∀ {fd fil}, s'.fdContainer.byId.lookup fd = some fil →
      (s.fdContainer.byId.lookup fd = some fil ∧
        (s'.world.1.files fil.raw).mp = (s.world.1.files fil.raw).mp ∧
        (s'.world.1.files fil.raw).inode = (s.world.1.files fil.raw).inode) ∨
      fd = s.idx ∧ fil.raw = s.world.1.nextRaw ∧ fil.raw < s'.world.1.nextRaw ∧
        s'.world.1.Live k fil.raw) : Filed mp k s' := by
  refine ⟨one, sound, fun {fd fil} h => ?_, fun {fd fil} h => ?_, fun {fd fd' fil fil'} h h' e => ?_⟩
  · rcases hl h with ⟨h, hm, hi⟩ | ⟨-, -, -, l⟩
    · have l := fl.live h
      refine ⟨one.mounted, hm.trans l.mp, ?_, ?_⟩
      · rw [hi]
        exact retains.used l.used
      · rw [hi, retains.type l.used]
        exact l.regFile
    · exact l
  · rcases hl h with ⟨h, -, -⟩ | ⟨-, -, lt, -⟩
    · exact (fl.below h).trans_le nextRaw
    · exact lt
  · rcases hl h with ⟨h, -, -⟩ | ⟨hx, hr, -, -⟩
    · rcases hl h' with ⟨h', -, -⟩ | ⟨-, hr', -, -⟩
      · exact fl.apart h h' e
      · exact absurd (e.trans hr') (fl.below h).ne
    · rcases hl h' with ⟨h', -, -⟩ | ⟨hx', -, -, -⟩
      · exact absurd (e.symm.trans hr) (fl.below h').ne
      · exact hx.trans hx'.symm

/-- An `open` that returns a descriptor adds an open file. -/
lemma Filed.opens (fl : Filed mp k s) {path : Str} {flags : Flags} {mode fd : Int}
    (ok : s.idx ∉ s.fdContainer.byId)
    (e : Pimpl.open (backend bl O) path flags mode s = (.ok fd, s')) :
    ∃ i, Files.Step (files k s) (.open fd i (openMode flags)) (files k s') ∧ Filed mp k s' := by
  have he : exec (backend bl O) (.open path flags mode) s = .ok (.ok fd, s') :=
    congrArg Except.ok e
  have one := fl.one.exec rfl he
  have t := sameTables_exec rfl he
  obtain ⟨abspath, mp', handle, -, hm, -, hc, hw, rfl, -, hfd, -⟩ := open_ok e
  cases fl.one.found hm
  obtain ⟨o, -, ho⟩ := fl.one.call bl O
  rw [ho] at hc hw
  obtain ⟨f, hf⟩ := FilesystemLwext4.opens hc fl.one.only fl.sound
  have hw' : s'.world.1 = (FilesystemLwext4.open bl mp.fs o abspath flags s.world.1).2 :=
    congrArg Prod.fst hw
  rw [← hw'] at hf
  -- the handle is the one new entry of the table
  have hn : s.fdContainer.byId.lookup s.idx = none := AList.lookup_eq_none.mpr ok
  have self : s'.fdContainer.byId.lookup s.idx = some handle := by
    rw [hfd]
    exact UnorderedMap.lookup_emplace ok
  have ne : ∀ {fd}, fd ≠ s.idx → s'.fdContainer.byId.lookup fd = s.fdContainer.byId.lookup fd :=
    fun hx => by
      rw [hfd]
      exact UnorderedMap.lookup_emplace_ne hx
  have old : ∀ {fd fil}, s.fdContainer.byId.lookup fd = some fil →
      s'.world.1.files fil.raw = s.world.1.files fil.raw := fun h => by
    rw [hf.files, Function.update_of_ne (fl.below h).ne]
  have new : s'.world.1.files handle.raw = f := by rw [hf.files, hf.raw, Function.update_self]
  have hd : (files k s').data = (files k s).emptied f.inode (openMode flags) := hf.content
  have hs : files k s' = { files k s with
      data := (files k s).emptied f.inode (openMode flags)
      opened := Function.update (files k s).opened s.idx
        (some ((files k s).start f.inode (openMode flags))) } := by
    apply Files.ext
    · exact congrArg (fun m => (m k).readOnly) t.sMp
    · exact hd
    · refine Function.eq_update_iff.mpr ⟨?_, fun fd hx => opened_congr (ne hx) old⟩
      have hsize : f.fsize = ((files k s).emptied f.inode (openMode flags) f.inode).length := by
        rw [← hd]
        exact hf.fsize
      simp only [files, self, Option.map_some, World.openFile, new, hf.openFlags, hf.fpos, hsize]
      rfl
  refine ⟨f.inode, ?_, fl.step one hf.sound hf.retains (by rw [hf.nextRaw]; omega)
    fun {fd fil} h => ?_⟩
  · rw [hs]
    refine .open ?_
    simp only [files, hn, Option.map_none]
  · by_cases hx : fd = s.idx
    · subst hx
      cases self.symm.trans h
      refine .inr ⟨rfl, hf.raw, by rw [hf.raw, hf.nextRaw]; omega, one.mounted, ?_, ?_, ?_⟩
      · rw [new]
        exact hf.mp
      · rw [new]
        exact hf.used
      · rw [new]
        exact hf.regFile
    · rw [ne hx] at h
      exact .inl ⟨h, by rw [old h], by rw [old h]⟩

/-- The method on a file serves the request. -/
lemma served_callFile {o : Object} {w : World} {op : FdOp} {h : FileHandle} {req : Request}
    (l : w.Live k h.raw) (hr : request op = some req)
    (write : ∀ data, op = .write data → w.Inside h.raw)
    (seek : ∀ pos, op = .lseek pos 1 → w.SeenInside h.raw) :
    w.Served k h.raw req (answer op (FilesystemLwext4.callFile bl o op h w).1)
      (FilesystemLwext4.callFile bl o op h w).2 := by
  cases op with
  | read len =>
    cases hr
    exact World.served_fread l len
  | write data =>
    cases hr
    exact World.served_fwrite l data (write data rfl)
  | lseek pos dir =>
    cases hr
    have sv : w.Served k h.raw _ _ _ := World.served_fseek pos dir fun e => seek pos (e ▸ rfl)
    show w.Served k h.raw _ (answer (.lseek pos dir) (FilesystemLwext4.lseek h pos dir w).1)
      (FilesystemLwext4.lseek h pos dir w).2
    unfold FilesystemLwext4.lseek
    by_cases h0 : (w.ext4Fseek h.raw pos dir).1 = 0
    · rw [if_pos h0] at sv
      simp only [h0, ne_eq, not_true_eq_false, if_false, answer, Int.toNat_natCast]
      exact sv
    · rw [if_neg h0] at sv
      simp only [ne_eq, h0, not_false_eq_true, if_true, answer]
      exact sv
  | ftruncate len =>
    cases hr
    show w.Served k h.raw _ (answer (.ftruncate len) (FilesystemLwext4.ftruncate bl h len w).1)
      (FilesystemLwext4.ftruncate bl h len w).2
    rw [FilesystemLwext4.ftruncate_eq]
    exact World.served_ftruncate l _
  | _ => cases hr

/-- An operation on a descriptor that is no standard stream is the method. -/
lemma fileOp_eq {σ : Type} {B : Backend σ} {s : Pimpl σ} {op : FdOp} {fd : Int} (h : 3 ≤ fd)
    (hc : op ≠ .close) : fileOp B op fd s = invokeFopsFd B op fd s := by
  have h' : ¬ fd < 3 := by omega
  cases op with
  | close => exact absurd rfl hc
  | write data =>
    have e : invokeStdstreamOut B fd data s = (.error EPERM, s) := by
      unfold invokeStdstreamOut
      rw [if_neg (by omega), if_neg (by omega)]
    simp only [fileOp, write, e]
  | read len =>
    have e : invokeStdstreamIn B fd len s = ((.error EPERM, []), s) := if_neg (by omega)
    simp only [fileOp, read, e]
  | fstat => exact if_neg h'
  | isatty => exact if_neg h'
  | _ => rfl

/-- An operation on a descriptor finds no file, or is the method on the one mount. -/
lemma Filed.invoked (fl : Filed mp k s) {op : FdOp} {fd : Int} {r : op.Ret}
    (e : invokeFopsFd (backend bl O) op fd s = .ok (r, s')) :
    s.fdContainer.byId.lookup fd = none ∧ r = op.terror EBADF ∧ s' = s ∨
      ∃ o fil, s.fdContainer.byId.lookup fd = some fil ∧
        r = (FilesystemLwext4.callFile bl o op fil s.world.1).1 ∧
        s'.world.1 = (FilesystemLwext4.callFile bl o op fil s.world.1).2 := by
  unfold invokeFopsFd at e
  split at e
  · rename_i hf
    cases e
    exact .inl ⟨hf, rfl, rfl⟩
  · rename_i fil hf
    split at e
    · cases e
    · rename_i mp' hm
      rw [(fl.one.handles hf).1] at hm
      cases fl.one.lookup_eq hm
      obtain ⟨o, -, ho⟩ := fl.one.call bl O
      cases e
      refine .inr ⟨o, fil, hf, ?_, ?_⟩
      · exact congrArg Prod.fst (ho (.file op fil))
      · exact congrArg (fun r => r.2.1) (ho (.file op fil))

/-- A request is served, or refused where there is no such file. -/
lemma Filed.serves (fl : Filed mp k s) {op : FdOp} {fd : Int} {r : op.Ret} {req : Request}
    (h : 3 ≤ fd) (hr : request op = some req) (inside : PlacedInside s op fd)
    (e : fileOp (backend bl O) op fd s = .ok (r, s')) :
    Files.Step (files k s) (.serve fd req (answer op r)) (files k s') ∧ Filed mp k s' := by
  have hc : op ≠ .close := by
    rintro rfl
    cases hr
  have he : exec (backend bl O) (.file op fd) s = .ok (reply (op.code r), s') := by
    show (fileOp _ op fd s).map _ = _
    rw [e]
    rfl
  have one := fl.one.exec rfl he
  have t := sameTables_exec rfl he
  rw [fileOp_eq h hc] at e
  have q := Quiet.invokeFopsFd e
  rcases fl.invoked e with ⟨hf, hr', rfl⟩ | ⟨o, fil, hf, hr', hw⟩
  · have ha : answer op r = .refused := by
      rw [hr']
      cases op with
      | _ => cases hr <;> rfl
    rw [ha]
    exact ⟨.absent (by simp only [files, hf, Option.map_none]), fl⟩
  · have sv : s.world.1.Served k fil.raw req (answer op (FilesystemLwext4.callFile bl o op fil
        s.world.1).1) (FilesystemLwext4.callFile bl o op fil s.world.1).2 :=
      served_callFile (fl.live hf) hr (fun data e => (e ▸ inside.write :) fil hf)
        fun pos e => inside.seek e hf
    rw [← hr', ← hw] at sv
    obtain ⟨d, serves, hd⟩ := sv.serves
    obtain ⟨f, hff, hmp, hi⟩ := sv.files
    have hl : s'.fdContainer.byId.lookup fd = s.fdContainer.byId.lookup fd := by
      rw [q.fdContainer]
    have hs : files k s' = { files k s with
        data := Function.update (files k s).data (s.world.1.openFile fil.raw).file d
        opened := Function.update (files k s).opened fd (some (s'.world.1.openFile fil.raw)) } := by
      apply Files.ext
      · exact congrArg (fun m => (m k).readOnly) t.sMp
      · exact hd
      · refine Function.eq_update_iff.mpr ⟨?_, fun fd' hx => opened_congr ?_ fun h => ?_⟩
        · simp only [files, hl, hf, Option.map_some]
        · rw [q.fdContainer]
        · -- another descriptor has another file
          rw [hff, Function.update_of_ne fun e => hx (fl.apart h hf e)]
    refine ⟨?_, fl.step one (sv.sound fl.sound) sv.retains sv.nextRaw.ge fun {fd' fil'} h => ?_⟩
    · rw [hs]
      exact .serve (by simp only [files, hf, Option.map_some]) serves
    · rw [q.fdContainer] at h
      refine .inl ⟨h, ?_⟩
      rw [hff]
      by_cases hx : fil'.raw = fil.raw
      · rw [hx, Function.update_self]
        exact ⟨hmp, hi⟩
      · rw [Function.update_of_ne hx]
        exact ⟨rfl, rfl⟩

/-- A `close` that removes no file takes an open file away, or does nothing. -/
lemma Filed.closes (fl : Filed mp k s) {fd : Int} {e : ErrorCode}
    (keep : (s.fdContainer.remove fd).1 = none)
    (h : fileOp (backend bl O) .close fd s = .ok (e, s')) :
    Files.Step (files k s) (.close fd) (files k s') ∧ Filed mp k s' := by
  have he : exec (backend bl O) (.file .close fd) s = .ok (reply e, s') := by
    show (fileOp _ FdOp.close fd s).map _ = _
    rw [h]
    rfl
  have one := fl.one.exec rfl he
  have t := sameTables_exec rfl he
  rcases close_cases h with ⟨hf, rfl⟩ | ⟨fil, mp', hf, hm, ⟨-, -, rfl⟩ | ⟨path, hp, -⟩⟩
  · have hs : { files k s' with opened := Function.update (files k s').opened fd none } =
        files k s' := by
      refine Files.ext rfl rfl (Function.eq_update_iff.mpr ⟨?_, fun _ _ => rfl⟩).symm
      simp only [files, hf, Option.map_none]
    have st := Files.Step.close (F := files k s') (k := fd)
    rw [hs] at st
    exact ⟨st, fl⟩
  · rw [(fl.one.handles hf).1] at hm
    cases fl.one.lookup_eq hm
    obtain ⟨o, -, ho⟩ := fl.one.call bl O
    have hw : (afterRemove (backend bl O) s fd fil mp).world.1 =
        (FilesystemLwext4.call bl mp.fs o (.file .close fil) s.world.1).2 :=
      congrArg (fun r => r.2.1) (ho (.file .close fil))
    have kp : Volume.Keeps (s.world.1.volume k)
        ((FilesystemLwext4.call bl mp.fs o (.file .close fil) s.world.1).2.volume k) :=
      FilesystemLwext4.keeps_call rfl fl.one.only fl.sound
    have hff : (FilesystemLwext4.call bl mp.fs o (.file .close fil) s.world.1).2.files =
        Function.update s.world.1.files fil.raw {} := World.files_change.1
    have hn : (FilesystemLwext4.call bl mp.fs o (.file .close fil) s.world.1).2.nextRaw =
        s.world.1.nextRaw := World.files_change.2
    rw [← hw] at kp hff hn
    have hb : (afterRemove (backend bl O) s fd fil mp).fdContainer.byId.lookup =
        Function.update s.fdContainer.byId.lookup fd none := by
      have hb := FileDescriptorContainer.byId_remove (UnorderedMap.mem_of_lookup hf)
      rw [← UnorderedMap.lookup_erase_eq, ← hb]
      rfl
    have ne : ∀ {fd'}, fd' ≠ fd →
        (afterRemove (backend bl O) s fd fil mp).fdContainer.byId.lookup fd' =
          s.fdContainer.byId.lookup fd' := fun hx =>
      (congrFun hb _).trans (Function.update_of_ne hx _ _)
    have old : ∀ {fd' fil'}, fd' ≠ fd → s.fdContainer.byId.lookup fd' = some fil' →
        (afterRemove (backend bl O) s fd fil mp).world.1.files fil'.raw =
          s.world.1.files fil'.raw := fun hx h => by
      rw [hff, Function.update_of_ne fun e => hx (fl.apart h hf e)]
    have hs : files k (afterRemove (backend bl O) s fd fil mp) =
        { files k s with opened := Function.update (files k s).opened fd none } := by
      apply Files.ext
      · exact congrArg (fun m => (m k).readOnly) t.sMp
      · exact kp.content
      · refine Function.eq_update_iff.mpr ⟨?_, fun fd' hx => opened_congr (ne hx) (old hx)⟩
        simp only [files, congrFun hb fd, Function.update_self, Option.map_none]
    refine ⟨by rw [hs]; exact .close, fl.step one kp.sound kp.retains hn.ge fun {fd' fil'} h => ?_⟩
    have hx : fd' ≠ fd := by
      rintro rfl
      rw [congrFun hb fd', Function.update_self] at h
      cases h
    rw [ne hx] at h
    exact .inl ⟨h, by rw [old hx h], by rw [old hx h]⟩
  · rw [keep] at hp
    cases hp

/-! ### Sessions -/

/-- A method that is no request leaves open files alone. -/
lemma preserving_of_request {op : FdOp} (hr : request op = none) (hc : op ≠ .close)
    (h : FileHandle) : FilesystemLwext4.preserving (.file op h) = true ∧
      FilesystemLwext4.moving (.file op h) = false := by
  cases op with
  | close => exact absurd rfl hc
  | fstat => exact ⟨rfl, rfl⟩
  | fsync => exact ⟨rfl, rfl⟩
  | flock cmd => exact ⟨rfl, rfl⟩
  | isatty => exact ⟨rfl, rfl⟩
  | fchmod mode => exact ⟨rfl, rfl⟩
  | _ => cases hr

/-- Every operation does to open files what its answer says, and what it does besides leaves them
alone. -/
lemma Filed.simulates (fl : Filed mp k s) {d : Did} (st : FileStep (backend bl O) s d s') :
    ∃ o, Shows d o ∧ MaybeStep Files.Step (files k s) o (files k s') ∧ Filed mp k s' := by
  cases st with
  | @file op fd r _ h keep inside e =>
    cases hr : request op with
    | some req =>
      obtain ⟨st, fl'⟩ := fl.serves h hr inside e
      exact ⟨_, .serve hr, .some st, fl'⟩
    | none =>
      by_cases hc : op = .close
      · subst hc
        obtain ⟨st, fl'⟩ := fl.closes (keep rfl) e
        exact ⟨_, .close, .some st, fl'⟩
      · have he : exec (backend bl O) (.file op fd) s = .ok (reply (op.code r), s') := by
          show (fileOp _ op fd s).map _ = _
          rw [e]
          rfl
        have hb : ∀ fd', s'.fdContainer.byId.lookup fd' = s.fdContainer.byId.lookup fd' := by
          rw [fileOp_eq h hc] at e
          rw [(Quiet.invokeFopsFd e).fdContainer]
          exact fun _ => rfl
        obtain ⟨fl', e⟩ := fl.still (fl.one.exec rfl he) hb (fl.drives (exec_drives rfl he)
          fun m => by
            cases m with
            | statVfs h => rcases h with h | ⟨_, h⟩ <;> cases h
            | file => exact preserving_of_request hr hc _
            | closed => exact absurd rfl hc)
        rw [e]
        exact ⟨none, .other hr hc, .none, fl'⟩
  | @rest l _ ok st =>
    by_cases ho : ∃ path flags mode fd, l = .op (.open path flags mode) (.ok fd)
    · obtain ⟨path, flags, mode, fd, rfl⟩ := ho
      cases st with
      | op _ e =>
        obtain ⟨i, st, fl'⟩ := fl.opens ok (Except.ok.inj e)
        exact ⟨_, .open, .some st, fl'⟩
    · have no : ∀ path flags mode fd, l ≠ .op (.open path flags mode) (.ok fd) :=
        fun _ _ _ _ h => ho ⟨_, _, _, _, h⟩
      obtain ⟨fl', e⟩ := fl.quiet ok no st
      rw [e]
      exact ⟨none, .rest no, .none, fl'⟩

end Pimpl
end Evfs
