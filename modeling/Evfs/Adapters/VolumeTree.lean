import Evfs.Adapters.DirOnExt4
import Evfs.Fstypes.NativePath

/-!
# Iterating over all files of a volume

Where one ext4 volume is mounted, a `recursive_directory_iterator` lists the inodes below a directory
(`iterates_volume`): a path with the name of an entry appended leads to the inode of the entry, through
the normal form of the path, the mount table and the names that lwext4 sees.
-/

namespace Evfs
open Lib Lwext4
namespace FsDir

/-! ### Names appended to paths -/

/-- Without an empty name at the end. -/
def trimmed (ns : List Str) : List Str := if ns.getLast? = some [] then ns.dropLast else ns

/-- A slash at the end is dropped. -/
lemma trimmed_concat (ns : List Str) : trimmed (ns ++ [[]]) = ns := by
  rw [trimmed, if_pos List.getLast?_concat, List.dropLast_concat]

variable {p name : Str}

/-- A name without slashes is one name. -/
lemma splitNames_name (h : '/' ∉ name) : Path.splitNames name = [name] :=
  List.splitOn_eq_singleton h

/-- The names on both sides of a slash. -/
lemma splitNames_slash (q name : Str) :
    Path.splitNames (q ++ '/' :: name) = Path.splitNames q ++ Path.splitNames name :=
  List.splitOn_append_cons_self _ _

/-- A path with an empty name at its end ends in a separator. -/
lemma slash_of_getLast? (h : (Path.splitNames p).getLast? = some []) :
    p = [] ∨ p.getLast? = some '/' := by
  obtain ⟨ns, hns⟩ := List.getLast?_eq_some_iff.mp h
  by_cases hn : ns = []
  · left
    apply Path.splitNames_inj
    rw [hns, hn]
    rfl
  · right
    have hno : ∀ n ∈ ns, '/' ∉ n := fun n hm => by
      apply Path.noSlash_of_mem_splitNames (p := p)
      rw [hns]
      exact List.mem_append_left _ hm
    have e : p = ['/'].intercalate ns ++ ['/'] := by
      apply Path.splitNames_inj
      rw [hns, splitNames_slash, Path.splitNames, List.splitOn_intercalate _ hno hn]
      rfl
    rw [e, List.getLast?_concat]

/-- An appended name comes behind the names of the path. -/
lemma splitNames_append (h : '/' ∉ name) :
    Path.splitNames (append p name) = trimmed (Path.splitNames p) ++ [name] := by
  have hs : name.head? ≠ some '/' := fun e => h (List.mem_of_mem_head? e)
  unfold append
  split
  · rename_i hp
    rw [hp.resolve_left hs, splitNames_name h]
    rfl
  · rename_i hp
    push Not at hp
    split
    · rename_i hl
      obtain ⟨q, rfl⟩ := List.getLast?_eq_some_iff.mp hl
      rw [List.append_assoc, List.singleton_append, splitNames_slash, splitNames_name h,
        splitNames_slash]
      exact congrArg (· ++ [name]) (trimmed_concat _).symm
    · rename_i hl
      have hne : (Path.splitNames p).getLast? ≠ some [] := fun e =>
        (slash_of_getLast? e).elim hp.2 hl
      rw [splitNames_slash, splitNames_name h, trimmed, if_neg hne]

/-- The path begins the path of an entry. -/
lemma prefix_append (h : '/' ∉ name) (hp : p ≠ []) : p <+: append p name := by
  have hs : name.head? ≠ some '/' := fun e => h (List.mem_of_mem_head? e)
  unfold append
  rw [if_neg fun e => e.elim hs hp]
  split
  · exact List.prefix_append _ _
  · exact List.prefix_append _ _

/-- The names kept are those of the path and the one appended. -/
lemma kept_append (h : Path.Proper name) : Path.kept (append p name) = name :: Path.kept p := by
  have ht : (trimmed (Path.splitNames p)).foldl (Path.normStep true) [] = Path.kept p := by
    unfold trimmed
    split
    · rename_i hl
      obtain ⟨ns, hns⟩ := List.getLast?_eq_some_iff.mp hl
      rw [Path.kept, hns, List.dropLast_concat, List.foldl_append]
      rfl
    · rfl
  rw [Path.kept, splitNames_append h.noSlash, List.foldl_append, ht]
  simp [Path.normStep, h.ne_nil, h.ne_dot, h.ne_dotDot]

/-- The path of an entry is absolute when the directory's is. -/
lemma hasRootPath_append (h : '/' ∉ name) (hr : Path.hasRootPath p = true) :
    Path.hasRootPath (append p name) = true := by
  cases p with
  | nil => cases hr
  | cons c q =>
    have hs : name.head? ≠ some '/' := fun e => h (List.mem_of_mem_head? e)
    unfold append
    rw [if_neg fun e => e.elim hs (List.cons_ne_nil _ _)]
    split
    · exact hr
    · exact hr

/-- The normal form of a path with a name appended. -/
lemma lexicallyNormal_append (h : Path.Proper name) (hr : Path.hasRootPath p = true) :
    Path.lexicallyNormal (append p name) = append (Path.lexicallyNormal p) name := by
  have hk : ∀ n ∈ (Path.kept p).reverse, Path.Proper n :=
    fun n hn => Path.kept_proper p n (List.mem_reverse.mp hn)
  have hk' : ∀ n ∈ (name :: Path.kept p).reverse, Path.Proper n := fun n hn => by
    rcases List.mem_cons.mp (List.mem_reverse.mp hn) with rfl | hn
    · exact h
    · exact Path.kept_proper p n hn
  have ht : Path.trails (append p name) = false := by
    rw [Path.trails, splitNames_append h.noSlash, Path.endsInDir, List.getLast?_concat]
    simp [h.ne_nil, h.ne_dot, h.ne_dotDot]
  apply Path.splitNames_inj
  rw [splitNames_append h.noSlash, Path.lexicallyNormal_rooted (hasRootPath_append h.noSlash hr),
    Path.lexicallyNormal_rooted hr, kept_append h, ht, Path.splitNames_render hk',
    Path.splitNames_render hk]
  have e : ∀ l : List Str, trimmed l = [] :: (Path.kept p).reverse →
      [] :: (name :: Path.kept p).reverse = trimmed l ++ [name] := fun l hl => by
    rw [hl, List.reverse_cons, List.cons_append]
  rw [if_neg (by simp), List.append_nil]
  apply e
  split
  · exact trimmed_concat _
  · rename_i hne
    push Not at hne
    obtain ⟨n, ns, hns⟩ := List.exists_cons_of_ne_nil fun e => hne.2 (congrArg List.reverse e)
    rw [hns, List.append_nil, List.reverse_cons, ← List.cons_append, trimmed, if_neg]
    rw [List.getLast?_concat, Option.some_inj]
    exact (Path.kept_proper p n (hns ▸ List.mem_cons_self)).ne_nil

/-! ### Paths to directories -/

section Leads
variable {bl : BlockLayer} {v v' : Volume} {c : Ino} {n : Nat}

/-- From a directory to a file in it. -/
lemma openLoop_entry {ns : List Str} {ref parent : Ino} (parent' : Ino) {f : Volume.Found}
    {ftype : Option Lwext4.FileType} (h : Volume.Opens bl false (some .dir) ns ref parent v f v')
    (hc : v.findEntry f.inode name = some c) (hn : Volume.NameOk name)
    (ht : ftype.getD (v.inodes c).type = (v.inodes c).type) :
    Volume.openLoop bl false ftype (trimmed ns ++ [name]) ref parent' v =
      .ok (⟨c, f.inode, name⟩, v) := by
  have last : ∀ {d parent}, v.findEntry d name = some c →
      Volume.openLoop bl false ftype [name] d parent v = .ok (⟨c, d, name⟩, v) := by
    intro d parent hc
    rw [Volume.openLoop, if_pos hn, Volume.enter_some hc]
    exact if_pos ht
  induction h generalizing parent' with
  | @last n ref parent child v v' hok he hdir =>
    obtain ⟨rfl, hf⟩ := Volume.enter_false he
    have e : trimmed [n] = [n] := if_neg fun e => hok.1 (Option.some.inj e)
    rw [e, List.cons_append, List.nil_append, Volume.openLoop, if_pos hok, Volume.enter_some hf]
    exact (if_pos hdir.symm).trans (last hc)
  | slash hdir =>
    have e : trimmed [([] : Str)] = [] := rfl
    rw [e]
    exact last hc
  | @next n next ns ref parent child v v₁ v' f hok he hdir _ ih =>
    obtain ⟨rfl, hf⟩ := Volume.enter_false he
    have e : trimmed (n :: next :: ns) = n :: trimmed (next :: ns) := by
      unfold trimmed
      rw [List.getLast?_cons_cons]
      split
      · rfl
      · rfl
    have ih : Volume.openLoop bl false ftype (trimmed (next :: ns) ++ [name]) child ref v₁ =
        .ok (⟨c, f.inode, name⟩, v₁) := ih ref hc ht last
    obtain ⟨m, ms, hm⟩ : ∃ m ms, trimmed (next :: ns) ++ [name] = m :: ms :=
      List.exists_cons_of_ne_nil (List.append_ne_nil_of_right_ne_nil _ (List.cons_ne_nil _ _))
    rw [hm] at ih
    rw [e, List.cons_append, hm, Volume.openLoop, if_pos hok, Volume.enter_some hf]
    exact (if_pos hdir).trans ih

variable {τ : Type} {s : Pimpl (World × τ)} {mp : MountPoint} {k : Fin 4} {d : Ino}

variable (bl) in
/-- The path leads to a directory of the volume mounted at `mp`. -/
def LeadsTo (mp : MountPoint) (k : Fin 4) (s : Pimpl (World × τ)) (p : Str) (d : Ino) : Prop :=
  ∃ abspath f, absolutePath p = .ok abspath ∧ findMountPoint s.mounts abspath = some mp ∧
    s.world.1.lookup bl (some .dir) (toNativePath mp.root abspath) = .ok (k, f) ∧ f.inode = d

variable (bl) in
/-- The path leads to a symbolic link of the volume mounted at `mp`. -/
def LinkAt (mp : MountPoint) (k : Fin 4) (s : Pimpl (World × τ)) (p : Str) : Prop :=
  ∃ abspath f, absolutePath p = .ok abspath ∧ findMountPoint s.mounts abspath = some mp ∧
    s.world.1.lookup bl none (toNativePath mp.root abspath) = .ok (k, f) ∧
    ((s.world.1.volume k).inodes f.inode).type = .symlink

/-- Appending to a path is appending to its part below the mount point. -/
lemma native_append {root rest : Str} (hr : root.getLast? ≠ some '/') (h : '/' ∉ name)
    (hp : p ≠ []) (e : toNativePath root p = root ++ '/' :: rest) :
    append p name = root ++ '/' :: append rest name := by
  have hs : name.head? ≠ some '/' := fun e => h (List.mem_of_mem_head? e)
  have hap : ∀ q : Str, q ≠ [] → append q name =
      if q.getLast? = some '/' then q ++ name else q ++ '/' :: name :=
    fun q hq => if_neg fun e => e.elim hs hq
  have hnil : append [] name = name := if_pos (.inr rfl)
  rw [toNativePath] at e
  split at e
  · rename_i hroot
    subst hroot
    obtain rfl : rest = [] := (List.cons.inj (List.append_cancel_left e)).2.symm
    rw [hap p hp, if_neg hr, hnil]
  · subst e
    cases rest with
    | nil => rw [hap _ hp, if_pos List.getLast?_concat, hnil, List.append_assoc]; rfl
    | cons c rest =>
      have hl : (root ++ '/' :: c :: rest).getLast? = (c :: rest).getLast? := by
        rw [List.getLast?_append, List.getLast?_cons_cons]
        exact Option.or_of_isSome (by simp)
      rw [hap _ hp, hap _ (List.cons_ne_nil c rest), hl]
      split
      · rw [List.append_assoc, List.cons_append]
      · rw [List.append_assoc, List.cons_append]

/-- From a path to a directory to a path to a file in it. -/
lemma LeadsTo.lookup_append (one : Pimpl.OneMount mp k s) (hr : mp.root.getLast? ≠ some '/')
    (ld : LeadsTo bl mp k s p d) (hp : Path.Proper name) (hn : Volume.NameOk name)
    (hc : (s.world.1.volume k).findEntry d name = some c) {ftype : Option Lwext4.FileType}
    (ht : ftype.getD ((s.world.1.volume k).inodes c).type = ((s.world.1.volume k).inodes c).type) :
    ∃ abspath f, absolutePath (append p name) = .ok abspath ∧
      findMountPoint s.mounts abspath = some mp ∧
      s.world.1.lookup bl ftype (toNativePath mp.root abspath) = .ok (k, f) ∧ f.inode = c := by
  obtain ⟨abspath, f, ha, hf, hl, rfl⟩ := ld
  obtain ⟨rooted, rfl⟩ := Pimpl.absolutePath_ok ha
  have hne : Path.lexicallyNormal p ≠ [] := fun e => by
    have h := Path.hasRootPath_lexicallyNormal rooted
    rw [e] at h
    cases h
  obtain ⟨hm, hfind⟩ := World.lookup_ok.mp hl
  obtain ⟨rest, hrest⟩ := World.prefix_of_getMount hm
  have hnames : s.world.1.names (toNativePath mp.root (Path.lexicallyNormal p)) k =
      Path.splitNames rest := by
    rw [World.names, ← hrest, List.drop_left]
  rw [one.name, toNativeRoot, List.append_assoc, List.singleton_append] at hrest
  have e := native_append hr hp.noSlash hne hrest.symm
  have native : toNativePath mp.root (FsDir.append (Path.lexicallyNormal p) name) =
      (s.world.1.sMp k).name ++ FsDir.append rest name := by
    rw [one.name, toNativeRoot, List.append_assoc, List.singleton_append, ← e]
    refine if_neg fun e' => ?_
    rw [e] at e'
    exact absurd (List.append_right_eq_self.mp e') (List.cons_ne_nil _ _)
  refine ⟨FsDir.append (Path.lexicallyNormal p) name, ⟨c, f.inode, name⟩, ?_, ?_, ?_, rfl⟩
  · rw [absolutePath, if_pos (hasRootPath_append hp.noSlash rooted), lexicallyNormal_append hp rooted]
  · have found : ∀ q, findMountPoint s.mounts q = some mp ↔ mp.root <:+: q := fun q => by
      simp [findMountPoint, one.mounts]
    rw [found] at hf ⊢
    exact hf.trans (prefix_append hp.noSlash hne).isInfix
  · rw [native]
    refine World.lookup_ok.mpr ⟨?_, ?_⟩
    · refine World.getMount_eq one.mounted (List.prefix_append _ _) fun j hj hmj => ?_
      exact absurd (one.only hmj) (Nat.ne_of_lt hj ∘ congrArg Fin.val)
    · rw [hnames] at hfind
      have ho := openLoop_entry rootIndex (Volume.openLoop_opens (Volume.find_ok hfind)) hc
        hn ht
      rw [World.names, List.drop_left, splitNames_append hp.noSlash, Volume.find,
        Volume.genericOpen, ho]
      rfl

/-- From a path to a directory to a path to a directory in it. -/
lemma LeadsTo.append (one : Pimpl.OneMount mp k s) (hr : mp.root.getLast? ≠ some '/')
    (ld : LeadsTo bl mp k s p d) (hp : Path.Proper name) (hn : Volume.NameOk name)
    (hc : (s.world.1.volume k).findEntry d name = some c) (hd : (s.world.1.volume k).IsDir c) :
    LeadsTo bl mp k s (append p name) c :=
  ld.lookup_append one hr hp hn hc hd.symm

/-- From a path to a directory to a path to a symbolic link in it. -/
lemma LeadsTo.link (one : Pimpl.OneMount mp k s) (hr : mp.root.getLast? ≠ some '/')
    (ld : LeadsTo bl mp k s p d) (hp : Path.Proper name) (hn : Volume.NameOk name)
    (hc : (s.world.1.volume k).findEntry d name = some c)
    (ht : ((s.world.1.volume k).inodes c).type = .symlink) :
    LinkAt bl mp k s (FsDir.append p name) := by
  obtain ⟨abspath, f, ha, hf, hl, rfl⟩ := ld.lookup_append one hr hp hn hc (Option.getD_none)
  exact ⟨abspath, f, ha, hf, hl, ht⟩

/-! ### The tree of a volume -/

/-- A name that comes through a `dirent` as it is. -/
structure FileName (name : Str) : Prop extends Path.Proper name where
  noNull : Char.ofNat 0 ∉ name
  fits : name.length < Dirent.nameSize

/-- The inodes below a directory with these entries, under their names. What is a directory or a
symbolic link has to have a name that `ext4_path_check` accepts, and a directory less than `n`
entries. -/
inductive Below (v : Volume) (n : Nat) : List (Σ _ : Str, Ino) → Forest (Str × Ino) → Prop where
  | nil : Below v n [] .nil
  | dots {name c es f} : isDotOrDotdot name = true → Below v n es f → Below v n (⟨name, c⟩ :: es) f
  | file {name c es f} : FileName name → (v.inodes c).type ≠ .dir → (v.inodes c).type ≠ .symlink →
    Below v n es f → Below v n (⟨name, c⟩ :: es) (.cons (name, c) .nil f)
  | link {name c es f} : FileName name → Volume.NameOk name → (v.inodes c).type = .symlink →
    Below v n es f → Below v n (⟨name, c⟩ :: es) (.cons (name, c) .nil f)
  | dir {name c es below f} : FileName name → Volume.NameOk name → v.IsDir c →
    (v.inodes c).entries.entries.length < n → Below v n (v.inodes c).entries.entries below →
    Below v n es f → Below v n (⟨name, c⟩ :: es) (.cons (name, c) below f)

/-- The type that goes with an entry; that of a symbolic link is not told. -/
def fileTypeOf : Lwext4.FileType → FileType
  | .regFile => .regular
  | .dir => .directory
  | .chrdev => .character
  | .blkdev => .block
  | .fifo => .fifo
  | .sock => .socket
  | .symlink => .none

/-- The entries of the tree, under the directory `p`. -/
def withPaths (v : Volume) : Str → Forest (Str × Ino) → Forest Entry
  | _, .nil => .nil
  | p, .cons (name, c) below next =>
    .cons ⟨FsDir.append p name, fileTypeOf (v.inodes c).type⟩ (withPaths v (FsDir.append p name) below)
      (withPaths v p next)

/-- The type in the `dirent` is the inode's. -/
lemma cachedType_of {d : Dirent} {t : Lwext4.FileType}
    (h : d.type = Dirent.stmodeToType t.inoToStMode) : cachedType d = fileTypeOf t := by
  cases t with
  | regFile => rw [cachedType, getFileType, h.trans (show _ = 8 by decide)]; rfl
  | dir => rw [cachedType, getFileType, h.trans (show _ = 4 by decide)]; rfl
  | chrdev => rw [cachedType, getFileType, h.trans (show _ = 2 by decide)]; rfl
  | blkdev => rw [cachedType, getFileType, h.trans (show _ = 6 by decide)]; rfl
  | fifo => rw [cachedType, getFileType, h.trans (show _ = 1 by decide)]; rfl
  | sock => rw [cachedType, getFileType, h.trans (show _ = 12 by decide)]; rfl
  | symlink => rw [cachedType, getFileType, h.trans (show _ = 0 by decide)]; rfl

/-- What is neither a directory nor a symbolic link is told to be something else. -/
lemma fileTypeOf_other {t : Lwext4.FileType} (hd : t ≠ .dir) (hl : t ≠ .symlink) :
    fileTypeOf t ≠ .none ∧ fileTypeOf t ≠ .directory ∧ fileTypeOf t ≠ .symlink := by
  cases t with
  | dir => exact absurd rfl hd
  | symlink => exact absurd rfl hl
  | _ => exact ⟨nofun, nofun, nofun⟩

/-- The `dirent` of an entry. -/
def direntOf (v : Volume) (e : Σ _ : Str, Ino) : Dirent :=
  .of e.1 { ino := e.2, mode := (v.inodes e.2).type.inoToStMode }

/-- A name without a null character is kept. -/
lemma name_direntOf {e : Σ _ : Str, Ino} (h : Char.ofNat 0 ∉ e.1) : (direntOf v e).name = e.1 :=
  List.takeWhile_eq_self_iff.mpr fun _ hm => decide_eq_true fun e' => h (e' ▸ hm)

/-- The two dots are such names. -/
lemma noNull_dots (h : isDotOrDotdot name = true) :
    Char.ofNat 0 ∉ name ∧ name.length < Dirent.nameSize := by
  rcases of_decide_eq_true h with rfl | rfl <;> decide

/-- A file's name is neither of them. -/
lemma FileName.notDots (h : FileName name) : isDotOrDotdot name = false :=
  decide_eq_false fun e => e.elim h.ne_dot h.ne_dotDot

/-- The entry that the iterator shows. -/
lemma entryAt_direntOf {e : Σ _ : Str, Ino} (h : FileName e.1) :
    entryAt p (direntOf v e) = ⟨FsDir.append p e.1, fileTypeOf (v.inodes e.2).type⟩ := by
  rw [entryAt, name_direntOf h.noNull, cachedType_of (d := direntOf v e) rfl]

/-- The names below fit into a `dirent`. -/
lemma Below.fit {es : List (Σ _ : Str, Ino)} {f : Forest (Str × Ino)} (b : Below v n es f) :
    ∀ e ∈ es, e.1.length < Dirent.nameSize := by
  induction b with
  | nil => exact fun _ h => absurd h List.not_mem_nil
  | dots hd _ ih => exact List.forall_mem_cons.mpr ⟨(noNull_dots hd).2, ih⟩
  | file hn _ _ _ ih => exact List.forall_mem_cons.mpr ⟨hn.fits, ih⟩
  | link hn _ _ _ ih => exact List.forall_mem_cons.mpr ⟨hn.fits, ih⟩
  | dir hn _ _ _ _ _ _ ih => exact List.forall_mem_cons.mpr ⟨hn.fits, ih⟩

/-- A path to a directory lists its entries. -/
lemma LeadsTo.lists (one : Pimpl.OneMount mp k s) (ld : LeadsTo bl mp k s p d)
    (fit : NamesFit (s.world.1.volume k) d) :
    Lists bl s p (direntsOf (s.world.1.volume k) d) := by
  obtain ⟨abspath, f, ha, hf, hl, rfl⟩ := ld
  obtain ⟨o, ho, hr⟩ := one.object
  exact ⟨abspath, mp, o, k, f, ha, hf, ho, hr ▸ one.lookup, hr ▸ hl, fit, rfl⟩

variable {O : Backend τ} {lib : Library (Pimpl (World × τ))} {o : Options}

/-- What the paths show is the tree of the inodes. -/
lemma Below.shown (one : Pimpl.OneMount mp k s) (hr : mp.root.getLast? ≠ some '/')
    (q : lib.Quiet s (LinkAt bl mp k s)) (ho : o.followDirectorySymlink = false)
    {es : List (Σ _ : Str, Ino)} {f : Forest (Str × Ino)} (b : Below (s.world.1.volume k) n es f)
    (ld : LeadsTo bl mp k s p d)
    (sub : ∀ e ∈ es, e ∈ ((s.world.1.volume k).inodes d).entries.entries) :
    (service bl O n q).Shown o p (es.map (direntOf (s.world.1.volume k)))
      (withPaths (s.world.1.volume k) p f) := by
  induction b generalizing p d with
  | nil => exact .nil
  | dots hd _ ih =>
    refine .dots ?_ (ih ld fun e he => sub e (List.mem_cons_of_mem _ he))
    rwa [name_direntOf (noNull_dots hd).1]
  | @file name c es f hn hd hl _ ih =>
    have ih := ih ld fun e he => sub e (List.mem_cons_of_mem _ he)
    have e := entryAt_direntOf (v := s.world.1.volume k) (p := p) (e := ⟨name, c⟩) hn
    obtain ⟨h₀, h₁, h₂⟩ := fileTypeOf_other hd hl
    rw [withPaths, ← e]
    refine .entry ?_ (.leaf ⟨_, ?_, h₁, fun h => absurd h h₂⟩) ih
    · rw [name_direntOf hn.noNull]
      exact hn.notDots
    · rw [e, Service.HasType, if_neg h₀]
  | @link name c es f hn hok ht _ ih =>
    have ih := ih ld fun e he => sub e (List.mem_cons_of_mem _ he)
    have e := entryAt_direntOf (v := s.world.1.volume k) (p := p) (e := ⟨name, c⟩) hn
    have hc : (s.world.1.volume k).findEntry d name = some c :=
      UnorderedMap.mem_entries_iff.mp (sub _ List.mem_cons_self)
    rw [withPaths, ← e]
    refine .entry ?_ (.leaf ⟨.symlink, ?_, nofun, fun _ hf => ?_⟩) ih
    · rw [name_direntOf hn.noNull]
      exact hn.notDots
    · -- the type is asked for by the path
      rw [e, Service.HasType, ht]
      exact ⟨ld.link one hr hn.toProper hok hc ht, rfl⟩
    · rw [ho] at hf
      cases hf
  | @dir name c es below f hn hok hd hlen bel _ ihb ih =>
    have ih := ih ld fun e he => sub e (List.mem_cons_of_mem _ he)
    have e := entryAt_direntOf (v := s.world.1.volume k) (p := p) (e := ⟨name, c⟩) hn
    have hc : (s.world.1.volume k).findEntry d name = some c :=
      UnorderedMap.mem_entries_iff.mp (sub _ List.mem_cons_self)
    have ld' := ld.append one hr hn.toProper hok hc hd
    have un : (service bl O n q).Under o ⟨FsDir.append p name,
        fileTypeOf ((s.world.1.volume k).inodes c).type⟩
        (withPaths (s.world.1.volume k) (FsDir.append p name) below) := by
      refine .dir (.inl ?_) ⟨ld'.lists one bel.fit, ?_⟩ (ihb ld' fun _ he => he)
      rotate_left
      · rwa [direntsOf, List.length_map]
      rw [show ((s.world.1.volume k).inodes c).type = .dir from hd]
      rfl
    rw [withPaths]
    refine e ▸ .entry ?_ (e.symm ▸ un) ih
    rw [name_direntOf hn.noNull]
    exact hn.notDots

end Leads

end FsDir
end Evfs
