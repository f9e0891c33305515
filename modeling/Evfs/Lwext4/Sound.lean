import Evfs.Lwext4.InUse

/-!
# Volumes without dangling entries

On a `Sound` volume the entries of directories in use are those of inodes in use. The functions that
free no inode keep it so, and whatever they do besides, they `Keep` the regular files: those in use
stay, with what they hold, and a new one is empty. `content` is what the files of a volume hold.
-/

namespace Evfs
namespace Lwext4
namespace Volume

/-- The entries of directories in use lead to inodes in use. -/
structure Sound (v : Volume) : Prop where
  root : v.used rootIndex = true
  entries {d name c} : v.used d = true → v.findEntry d name = some c → v.used c = true

/-- The regular files in use stay as they are, a new one is empty, and no entry dangles. -/
structure Keeps (v v' : Volume) : Prop where
  sound : v'.Sound
  used {a} : v.used a = true → v'.used a = true
  type {a} : v.used a = true → (v'.inodes a).type = (v.inodes a).type
  data {a} : v.used a = true → (v.inodes a).type = .regFile →
    (v'.inodes a).data = (v.inodes a).data
  fresh {a} : v.used a = false → v'.used a = true → (v'.inodes a).type = .regFile →
    (v'.inodes a).data = []

/-- What the file of an inode holds; an inode that is free or another thing holds nothing. -/
def content (v : Volume) (i : Ino) : List UInt8 :=
  if v.used i = true ∧ (v.inodes i).type = .regFile then (v.inodes i).data else []

variable {bl : BlockLayer} {v v' v'' : Volume} {d c i : Ino} {name : Str} {names : List Str}

/-- The content of a regular file in use is its data. -/
lemma content_file (hu : v.used i = true) (ht : (v.inodes i).type = .regFile) :
    v.content i = (v.inodes i).data := if_pos ⟨hu, ht⟩

/-- A file that is changed holds something else, and the others what they held. -/
lemma content_setData {data : List UInt8} (hu : v.used i = true)
    (ht : (v.inodes i).type = .regFile) :
    (v.modify i fun n => { n with data }).content = Function.update v.content i data := by
  funext a
  unfold content
  by_cases h : a = i
  · subst h
    rw [Function.update_self, inodes_modify_self]
    exact if_pos ⟨hu, ht⟩
  · rw [Function.update_of_ne h, inodes_modify_of_ne h]
    rfl

/-- New data keeps a volume sound. -/
lemma Sound.setData (s : v.Sound) {data : List UInt8} :
    (v.modify i fun n => { n with data }).Sound where
  root := s.root
  entries {d name c} hd e := by
    rw [findEntry_modify (by intro _; rfl)] at e
    exact s.entries hd e

/-- What is in use stays in use, and of its type. -/
structure Retains (v v' : Volume) : Prop where
  used {a} : v.used a = true → v'.used a = true
  type {a} : v.used a = true → (v'.inodes a).type = (v.inodes a).type

lemma Retains.trans (r : Retains v v') (r' : Retains v' v'') : Retains v v'' where
  used h := r'.used (r.used h)
  type h := (r'.type (r.used h)).trans (r.type h)

/-- What keeps everything retains what is in use. -/
lemma Keeps.retains (k : Keeps v v') : Retains v v' := ⟨k.used, k.type⟩

/-- New data retains what is in use. -/
lemma Retains.setData {data : List UInt8} :
    Retains v (v.modify i fun n => { n with data }) where
  used := id
  type _ := inodes_modify_congr Inode.type (by intro _; rfl) _

namespace Keeps

/-- A sound volume keeps itself. -/
lemma refl (s : v.Sound) : Keeps v v :=
  ⟨s, id, fun _ => rfl, fun _ _ => rfl, fun h h' => absurd (h.symm.trans h') (by decide)⟩

lemma trans (k : Keeps v v') (k' : Keeps v' v'') : Keeps v v'' where
  sound := k'.sound
  used h := k'.used (k.used h)
  type h := (k'.type (k.used h)).trans (k.type h)
  data h r := (k'.data (k.used h) ((k.type h).trans r)).trans (k.data h r)
  fresh {a} h h' r := by
    cases hu : v'.used a with
    | true =>
      have r' := (k'.type hu).symm.trans r
      exact (k'.data hu r').trans (k.fresh h hu r')
    | false => exact k'.fresh hu h' r

/-- The files hold what they held. -/
lemma content (k : Keeps v v') : v'.content = v.content := by
  funext a
  unfold Volume.content
  cases hu : v.used a with
  | true =>
    rw [k.used hu, k.type hu]
    by_cases ht : (v.inodes a).type = .regFile
    · rw [k.data hu ht]
    · simp only [ht, and_false, if_false]
  | false =>
    simp only [Bool.false_eq_true, false_and, if_false]
    split
    · rename_i h
      exact k.fresh hu h.1 h.2
    · rfl

/-- No inode is taken and no data changed, and new entries are those of inodes in use. -/
lemma same (s : v.Sound) (hu : v'.used = v.used)
    (hs : ∀ a, (v'.inodes a).type = (v.inodes a).type ∧
      ((v.inodes a).type = .regFile → (v'.inodes a).data = (v.inodes a).data))
    (he : ∀ {a n x}, v.used a = true → v'.findEntry a n = some x →
      v.findEntry a n = some x ∨ v.used x = true) : Keeps v v' where
  sound := by
    refine ⟨hu ▸ s.root, fun {d name c} hd e => ?_⟩
    rw [hu] at hd ⊢
    rcases he hd e with e | h
    · exact s.entries hd e
    · exact h
  used h := hu ▸ h
  type _ := (hs _).1
  data _ r := (hs _).2 r
  fresh h h' := by
    rw [hu, h] at h'
    cases h'

/-- A change of one inode that adds only entries of inodes in use. -/
lemma modify (s : v.Sound) {f : Inode → Inode} (ht : (f (v.inodes i)).type = (v.inodes i).type)
    (hd : (v.inodes i).type = .regFile → (f (v.inodes i)).data = (v.inodes i).data)
    (he : ∀ {n x}, (f (v.inodes i)).entries.lookup n = some x →
      (v.inodes i).entries.lookup n = some x ∨ v.used x = true) : Keeps v (v.modify i f) := by
  refine .same s rfl (fun a => ?_) fun {a n x} _ e => ?_
  · by_cases h : a = i
    · subst h
      rw [inodes_modify_self]
      exact ⟨ht, hd⟩
    · rw [inodes_modify_of_ne h]
      exact ⟨rfl, fun _ => rfl⟩
  · unfold findEntry at e ⊢
    by_cases h : a = i
    · subst h
      rw [inodes_modify_self] at e
      exact he e
    · rw [inodes_modify_of_ne h] at e
      exact .inl e

/-- Adding an entry to an inode in use. -/
lemma addEntry (s : v.Sound) (hc : v.used c = true) : Keeps v (v.addEntry bl d name c) := by
  refine .modify s rfl (fun _ => rfl) fun {n x} e => ?_
  by_cases h : n = name
  · subst h
    rw [Lib.UnorderedMap.lookup_insertAt_self] at e
    cases e
    exact .inr hc
  · exact .inl ((Lib.UnorderedMap.lookup_insertAt_ne h).symm.trans e)

/-- One link more. -/
lemma linksInc (s : v.Sound) : Keeps v (v.linksInc i) := .modify s rfl (fun _ => rfl) .inl

/-- One link less. -/
lemma linksDec (s : v.Sound) : Keeps v (v.linksDec i) := .modify s rfl (fun _ => rfl) .inl

/-- Removing an entry. -/
lemma removeEntry (s : v.Sound) (h : v.removeEntry d name = .ok v') : Keeps v v' := by
  unfold Volume.removeEntry at h
  split at h
  · cases h
    refine .modify s rfl (fun _ => rfl) fun {n x} e => ?_
    by_cases hn : n = name
    · subst hn
      rw [AList.lookup_erase] at e
      cases e
    · exact .inl ((AList.lookup_erase_ne hn).symm.trans e)
  · cases h

/-- A new entry, and the `.` and `..` of a new directory. -/
lemma link (s : v.Sound) (hd : v.used d = true) (hc : v.used c = true)
    (h : link bl d c name v = .ok v') : Keeps v v' := by
  obtain ⟨hu, hs⟩ := link_same h
  refine .same s hu (fun a => ⟨(hs a).1, fun _ => (hs a).2⟩) fun {a n x} _ e => ?_
  rw [findEntry_link h] at e
  split at e
  · cases e
    exact .inr hd
  · split at e
    · cases e
      exact .inr hc
    · split at e
      · cases e
        exact .inr hc
      · exact .inl e

/-- What is allocated is in use. -/
lemma allocInode (s : v.Sound) {type : FileType} (h : allocInode bl type v = .ok (c, v')) :
    Keeps v v' ∧ v'.used c = true := by
  obtain ⟨free, hu, hi⟩ := allocInode_ok h
  have ne : ∀ {a}, v.used a = true → a ≠ c := by
    rintro a ha rfl
    rw [free] at ha
    cases ha
  have used : ∀ {a}, v.used a = true → v'.used a = true := fun {a} ha => by
    rw [hu, Function.update_of_ne (ne ha), ha]
  have kept : ∀ {a}, a ≠ c → v'.inodes a = v.inodes a := fun {a} hne => by
    rw [hi, Function.update_of_ne hne]
  have new : v'.inodes c = { type, mode := defaultMode type } := by
    rw [hi, Function.update_self]
  refine ⟨⟨⟨used s.root, ?_⟩, used, fun ha => ?_, fun ha _ => ?_, fun {a} ha ha' _ => ?_⟩, ?_⟩
  · intro d name x hd e
    by_cases h : d = c
    · subst h
      rw [findEntry, new] at e
      cases e
    · rw [hu, Function.update_of_ne h] at hd
      rw [findEntry, kept h] at e
      exact used (s.entries hd e)
  · rw [kept (ne ha)]
  · rw [kept (ne ha)]
  · by_cases h : a = c
    · rw [h, new]
    · rw [hu, Function.update_of_ne h, ha] at ha'
      cases ha'
  · rw [hu, Function.update_self]

/-- The inode of an entry that is there or made is in use. -/
lemma enter (s : v.Sound) {creat : Bool} {type : FileType} (hd : v.used d = true)
    (h : enter bl creat type name d v = .ok (c, v')) : Keeps v v' ∧ v'.used c = true := by
  rcases enter_steps h with ⟨rfl, e⟩ | ⟨-, v₁, ha, hl⟩
  · exact ⟨.refl s, s.entries hd e⟩
  · obtain ⟨k, hc⟩ := Keeps.allocInode s ha
    have k' := Keeps.link k.sound (k.used hd) hc hl
    exact ⟨k.trans k', k'.used hc⟩

/-- What a path leads to is in use. -/
lemma openLoop (s : v.Sound) {creat : Bool} {ftype : Option FileType} {parent : Ino} {f : Found}
    (hd : v.used d = true)
    (h : openLoop bl creat ftype names d parent v = .ok (f, v')) :
    Keeps v v' ∧ v'.used f.inode = true := by
  replace h := openLoop_opens h
  induction h with
  | last _ he _ => exact Keeps.enter s hd he
  | slash _ => exact ⟨.refl s, hd⟩
  | next _ he _ _ ih =>
    obtain ⟨k, hc⟩ := Keeps.enter s hd he
    obtain ⟨k', hf⟩ := ih k.sound hc
    exact ⟨k.trans k', hf⟩

/-- What ext4 finds is in use. -/
lemma find (s : v.Sound) {ftype : Option FileType} {f : Found}
    (h : find bl ftype names v = .ok f) : v.used f.inode = true :=
  (openLoop s s.root (find_ok h)).2

/-- So is the directory a hard link goes to. -/
lemma hardlinkLoop (s : v.Sound) {ref : Ino} (hr : v.used ref = true)
    (h : hardlinkLoop names ref v = .ok (d, name)) : v.used d = true := by
  induction names generalizing ref with
  | nil => cases h
  | cons n names ih =>
    cases names with
    | nil =>
      rw [Volume.hardlinkLoop] at h
      split at h
      · split at h
        · cases h
        · cases h
          exact hr
      · split at h
        · cases h
        · cases h
    | cons next names =>
      rw [Volume.hardlinkLoop] at h
      split at h
      · split at h
        · rename_i hf
          split at h
          · exact ih (s.entries hr hf) h
          · cases h
        · cases h
      · cases h

/-! ### Operations -/

/-- Setting an attribute. -/
lemma setInode (s : v.Sound) {f : Inode → Inode} (h : setInode bl f names v = .ok v')
    (ht : ∀ n, (f n).type = n.type) (he : ∀ n, (f n).entries = n.entries)
    (hd : ∀ n, (f n).data = n.data) : Keeps v v' := by
  unfold Volume.setInode at h
  split at h
  · cases h
  · cases h
    exact .modify s (ht _) (fun _ => hd _) fun e => .inl (by rwa [he] at e)

/-- Making a directory. -/
lemma dirMk (s : v.Sound) (h : dirMk bl names v = .ok v') : Keeps v v' := by
  unfold Volume.dirMk at h
  split at h
  · cases h
    exact .refl s
  · cases ho : genericOpen bl true (some .dir) names v with
    | error e =>
      rw [ho] at h
      cases h
    | ok r =>
      rw [ho] at h
      cases h
      exact (openLoop s s.root ho).1

/-- Making a symbolic link. -/
lemma fsymlink (s : v.Sound) {target : Str} (h : fsymlink bl target names v = .ok v') :
    Keeps v v' := by
  unfold Volume.fsymlink at h
  split at h
  · cases h
  · rename_i f v₁ ho
    have k : Keeps v v₁ := (openLoop s s.root ho).1
    have ht : (v₁.inodes f.inode).type = .symlink := openLoop_type (by decide) ho
    repeat' split at h
    all_goals cases h
    · exact k
    · refine k.trans (.modify k.sound rfl (fun hr => ?_) .inl)
      rw [ht] at hr
      cases hr

/-- Making a hard link. -/
lemma flink (s : v.Sound) {newNames : List Str} (h : flink bl names newNames v = .ok v') :
    Keeps v v' := by
  unfold Volume.flink at h
  split at h
  · cases h
  · rename_i hf
    split at h
    · cases h
    · split at h
      · cases h
      · rename_i hl
        exact .link s (hardlinkLoop s s.root hl) (find s hf) h

/-- Entering the new name. -/
lemma linkRenamed (s : v.Sound) {isDir : Bool} (hc : v.used c = true)
    (h : linkRenamed bl d c isDir name v = .ok v') : Keeps v v' := by
  unfold Volume.linkRenamed at h
  split at h
  · cases h
    have k : Keeps v (v.addEntry bl d name c) := .addEntry s hc
    split
    · exact k.trans (.linksInc k.sound)
    · exact k
  · cases h

/-- Setting the directory above. -/
lemma resetParent (s : v.Sound) (hd : v.used d = true) (h : resetParent bl c d v = .ok v') :
    Keeps v v' := by
  unfold Volume.resetParent at h
  split at h
  · split at h
    · cases h
      exact .addEntry s hd
    · cases h
  · cases h
    exact .refl s

end Keeps

/-- A file is opened: it is in use, and with `O_TRUNC` it holds nothing any more. -/
lemma Sound.fopen2 (s : v.Sound) {creat trunc : Bool}
    (h : fopen2 bl creat trunc names v = .ok (i, v')) :
    v'.Sound ∧ Retains v v' ∧ v'.used i = true ∧ (v'.inodes i).type = .regFile ∧
      v'.content = if trunc then Function.update v.content i [] else v.content := by
  obtain ⟨f, v₁, ho, rfl, rfl⟩ := fopen2_ok h
  obtain ⟨k, hu⟩ := Keeps.openLoop s s.root ho
  have ht := openLoop_type (by decide) ho
  cases trunc with
  | false => exact ⟨k.sound, k.retains, hu, ht, k.content⟩
  | true =>
    have e : v₁.truncInode f.inode 0 = v₁.modify f.inode fun n => { n with data := [] } := rfl
    simp only [if_true]
    rw [e]
    refine ⟨k.sound.setData, k.retains.trans .setData, hu, ?_, ?_⟩
    · rw [inodes_modify_self]
      exact ht
    · rw [content_setData hu ht, k.content]

end Volume
end Lwext4
end Evfs
