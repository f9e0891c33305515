import Evfs.Adapters.Seekdir

/-!
# Two ways to read a directory

`readdir` and `readdir_r` of `adapters/syscalls.cpp` once more, now each with its own copy of the
algorithm as the source has them, to be compared: what they have in common is `nextEntry`
(`readdir_eq`, `readdirR_eq`). They deliver the same from every stream unless the caller's `*result`
is null, which `readdir_r` refuses before it looks at the directory.
-/

namespace Evfs
open Lib

/-- `snprintf` of a name into `d_name`. -/
def Dirent.printName (fname : Str) : Str :=
  (fname.takeWhile (· ≠ Char.ofNat 0)).take (Dirent.nameSize - 1)

namespace Syscalls.Apart
variable {σ : Type} (B : Backend σ)

/-- `readdir`. -/
def readdir (errno : ErrorCode) (dirp : Option Dirstream) (s : Pimpl σ) :
    Except Fault (DirResult σ (Option Dirent)) :=
  match dirp with
  | none => .ok ⟨none, EBADF, none, s⟩
  | some d =>
    match Pimpl.dirOp B .dirnext d.dirh s with
    | .error f => .error f
    | .ok ((ret, out), s) =>
      let (fname, stdata) := out.getD ([], {})
      if ret ≠ 0 ∧ ret ≠ ENOENT then .ok ⟨none, ret, some d, s⟩
      else if ret = ENOENT then .ok ⟨none, errno, some d, s⟩
      else if Dirent.nameSize ≤ fname.length then .ok ⟨none, EOVERFLOW, some d, s⟩
      else
        let dirData : Dirent := {
          ino := stdata.ino
          type := Dirent.stmodeToType stdata.mode
          reclen := fname.length
          name := Dirent.printName fname }
        .ok ⟨some dirData, errno, some { d with position := d.position + 1, dirData }, s⟩

/-- `readdir_r`, which writes to `*entry` and points `*result` at it. -/
def readdirR (errno : ErrorCode) (dirp : Option Dirstream) (entry : Dirent)
    (result : Option Dirent) (s : Pimpl σ) : Except Fault (DirResult σ ReaddirR) :=
  match dirp with
  | none => .ok ⟨⟨-1, entry, result⟩, EBADF, none, s⟩
  | some d =>
    if result = none then .ok ⟨⟨-1, entry, result⟩, EINVAL, some d, s⟩
    else
      match Pimpl.dirOp B .dirnext d.dirh s with
      | .error f => .error f
      | .ok ((ret, out), s) =>
        let (fname, stdata) := out.getD ([], {})
        if ret ≠ 0 ∧ ret ≠ ENOENT then .ok ⟨⟨-1, entry, result⟩, ret, some d, s⟩
        else if ret = ENOENT then .ok ⟨⟨0, entry, none⟩, errno, some d, s⟩
        else if Dirent.nameSize ≤ fname.length then
          .ok ⟨⟨-1, entry, result⟩, EOVERFLOW, some d, s⟩
        else
          let entry : Dirent := {
            ino := stdata.ino
            type := Dirent.stmodeToType stdata.mode
            reclen := fname.length
            name := Dirent.printName fname }
          .ok ⟨⟨0, entry, some entry⟩, errno, some { d with position := d.position + 1 }, s⟩

/-- A name that fits is printed up to its first null character. -/
lemma printName_eq {fname : Str} (h : fname.length < Dirent.nameSize) :
    Dirent.printName fname = fname.takeWhile (· ≠ Char.ofNat 0) := by
  rw [Dirent.printName, List.take_of_length_le]
  have hle := (List.takeWhile_sublist (· ≠ Char.ofNat 0) (l := fname)).length_le
  omega

variable {B}

/-- `readdir` is the one that shares `nextEntry`. -/
lemma readdir_eq (errno : ErrorCode) (dirp : Option Dirstream) (s : Pimpl σ) :
    readdir B errno dirp s = Syscalls.readdir B errno dirp s := by
  cases dirp with
  | none => rfl
  | some d =>
    rw [readdir, Syscalls.readdir, nextEntry]
    cases Pimpl.dirOp B .dirnext d.dirh s with
    | error f => rfl
    | ok r =>
      obtain ⟨⟨ret, out⟩, s'⟩ := r
      simp only
      split
      · rfl
      · split
        · rfl
        · split
          · rfl
          · rename_i hs
            rw [printName_eq (Nat.lt_of_not_le hs)]
            rfl

/-- So is `readdir_r`. -/
lemma readdirR_eq (errno : ErrorCode) (dirp : Option Dirstream) (entry : Dirent)
    (result : Option Dirent) (s : Pimpl σ) :
    readdirR B errno dirp entry result s = Syscalls.readdirR B errno dirp entry result s := by
  cases dirp with
  | none => rfl
  | some d =>
    rw [readdirR, Syscalls.readdirR, nextEntry]
    simp only
    split
    · rfl
    · cases Pimpl.dirOp B .dirnext d.dirh s with
      | error f => rfl
      | ok r =>
        obtain ⟨⟨ret, out⟩, s'⟩ := r
        simp only
        split
        · rfl
        · split
          · rfl
          · split
            · rfl
            · rename_i hs
              rw [printName_eq (Nat.lt_of_not_le hs)]
              rfl

/-! ## What is delivered -/

/-- What the caller learns, its `errno` having been cleared before. -/
inductive Delivery where
  | entry (e : Dirent)
  | finish
  | failed (e : ErrorCode)
  deriving DecidableEq

/-- `readdir` tells the end from an error by `errno`. -/
def delivered (r : DirResult σ (Option Dirent)) : Delivery :=
  match r.ret with
  | some e => .entry e
  | none => if r.errno = 0 then .finish else .failed r.errno

/-- `readdir_r` tells it by what it returns. -/
def deliveredR (r : DirResult σ ReaddirR) : Delivery :=
  if r.ret.ret = 0 then
    match r.ret.result with
    | some e => .entry e
    | none => .finish
  else .failed r.errno

/-- `readdir_r` delivers what `readdir` would, and leaves the stream where `readdir` would. -/
def Agrees (B : Backend σ) (dirp : Option Dirstream) (entry : Dirent) (result : Option Dirent)
    (s : Pimpl σ) : Prop :=
  (readdirR B 0 dirp entry result s).map (fun r =>
      (deliveredR r, r.dirp.map Dirstream.position)) =
    (readdir B 0 dirp s).map fun r => (delivered r, r.dirp.map Dirstream.position)

/-- The filesystem itself answers that the call is invalid. -/
def AnswersInvalid (B : Backend σ) (dirp : Option Dirstream) (s : Pimpl σ) : Prop :=
  ∃ d out s', dirp = some d ∧ Pimpl.dirOp B .dirnext d.dirh s = .ok ((EINVAL, out), s')

/-! ## Reading on -/

/-- One of the two calls. -/
inductive Read where
  | readdir
  | readdirR (entry : Dirent) (result : Option Dirent)
  deriving DecidableEq

/-- `*result` is not null. -/
def Read.Given : Read → Prop
  | readdir => True
  | readdirR _ result => result ≠ none

/-- What a call delivers, and what it leaves of the stream and of everything below. -/
def Read.run (B : Backend σ) (d : Dirstream) (s : Pimpl σ) :
    Read → Except Fault (Delivery × Dirstream × Pimpl σ)
  | readdir => (Apart.readdir B 0 (some d) s).map fun r => (delivered r, r.dirp.getD d, r.vfs)
  | readdirR entry result => (Apart.readdirR B 0 (some d) entry result s).map fun r =>
      (deliveredR r, r.dirp.getD d, r.vfs)

/-- Call after call on one stream. -/
def reads (B : Backend σ) : List Read → Dirstream → Pimpl σ →
    Except Fault (List Delivery × Dirstream × Pimpl σ)
  | [], d, s => .ok ([], d, s)
  | c :: calls, d, s =>
    match c.run B d s with
    | .error f => .error f
    | .ok (x, d, s) => (reads B calls d s).map fun r => (x :: r.1, r.2)

/-- What of a stream the calls depend on, after some have been made. -/
def view {α : Type} (r : α × Dirstream × Pimpl σ) :
    α × DirectoryHandle × BitVec 64 × Pimpl σ :=
  (r.1, r.2.1.dirh, r.2.1.position, r.2.2)

/-- What `nextEntry` comes to for the caller. -/
def Delivery.of : Except ErrorCode (Option Dirent) → Delivery
  | .error e => .failed e
  | .ok none => .finish
  | .ok (some e) => .entry e

variable {d d' : Dirstream} {s s' : Pimpl σ}

/-- `readdir` tells an error by `errno`. -/
lemma delivered_failed {e : ErrorCode} {dirp : Option Dirstream} (h : e ≠ 0) :
    delivered (⟨none, e, dirp, s⟩ : DirResult σ (Option Dirent)) = .failed e :=
  if_neg h

/-- A call that is not refused delivers what `nextEntry` finds. -/
lemma Read.run_view {c : Read} (h : c.Given) :
    (c.run B d s).map view =
      (nextEntry B d s).map fun r => view (Delivery.of r.1, r.2.1, r.2.2) := by
  cases c with
  | readdir =>
    rw [run, readdir_eq, Syscalls.readdir]
    cases hn : nextEntry B d s with
    | error f => rfl
    | ok r =>
      obtain ⟨x, d', s'⟩ := r
      cases x with
      | error e =>
        obtain ⟨_, _, -, -, hne⟩ := Session.nextEntry_ok hn
        simp only [Except.map, delivered_failed hne]
        rfl
      | ok o =>
        cases o with
        | none => rfl
        | some entry => rfl
  | readdirR entry result =>
    rw [run, readdirR_eq, Syscalls.readdirR, if_neg h]
    cases hn : nextEntry B d s with
    | error f => rfl
    | ok r =>
      obtain ⟨x, d', s'⟩ := r
      cases x with
      | error e => rfl
      | ok o =>
        cases o with
        | none => rfl
        | some entry => rfl

/-- The entry kept in the stream does not matter to what comes next. -/
lemma nextEntry_view (hh : d.dirh = d'.dirh) (hp : d.position = d'.position) :
    (nextEntry B d s).map (fun r => view (Delivery.of r.1, r.2.1, r.2.2)) =
      (nextEntry B d' s).map fun r => view (Delivery.of r.1, r.2.1, r.2.2) := by
  rw [nextEntry, nextEntry, hh]
  cases Pimpl.dirOp B .dirnext d'.dirh s with
  | error f => rfl
  | ok r =>
    obtain ⟨⟨ret, out⟩, s'⟩ := r
    simp only
    split
    · simp only [Except.map, view, hh, hp]
    · split
      · simp only [Except.map, view, hh, hp]
      · split
        · simp only [Except.map, view, hh, hp]
        · simp only [Except.map, view, hp]

/-- Two computations with the same view fail alike or end alike. -/
lemma cases_of_view {α : Type} {x y : Except Fault (α × Dirstream × Pimpl σ)}
    (h : x.map view = y.map view) :
    (∃ f, x = .error f ∧ y = .error f) ∨
      ∃ a d d' s, x = .ok (a, d, s) ∧ y = .ok (a, d', s) ∧ d.dirh = d'.dirh ∧
        d.position = d'.position := by
  cases x with
  | error f =>
    cases y with
    | error g =>
      cases h
      exact .inl ⟨f, rfl, rfl⟩
    | ok b => cases h
  | ok a =>
    cases y with
    | error g => cases h
    | ok b =>
      obtain ⟨a, d, s⟩ := a
      obtain ⟨b, d', s'⟩ := b
      simp only [Except.map, view, Except.ok.injEq, Prod.mk.injEq] at h
      obtain ⟨rfl, hh, hp, rfl⟩ := h
      exact .inr ⟨a, d, d', s, rfl, rfl, hh, hp⟩

/-- Any interleaving of the two calls is as good as that many calls of `readdir`. -/
lemma reads_view {calls : List Read} (h : ∀ c ∈ calls, c.Given) (hh : d.dirh = d'.dirh)
    (hp : d.position = d'.position) :
    (reads B calls d s).map view =
      (reads B (calls.map fun _ => .readdir) d' s).map view := by
  induction calls generalizing d d' s with
  | nil => simp only [List.map_nil, reads, Except.map, view, hh, hp]
  | cons c calls ih =>
    have hc : (c.run B d s).map view = (Read.readdir.run B d' s).map view := by
      rw [Read.run_view (h c List.mem_cons_self), Read.run_view (c := .readdir) trivial]
      exact nextEntry_view hh hp
    rw [List.map_cons, reads, reads]
    obtain ⟨f, hx, hy⟩ | ⟨x, d₁, d₂, s₁, hx, hy, hh₁, hp₁⟩ := cases_of_view hc
    · rw [hx, hy]
    · rw [hx, hy]
      have hr := ih (s := s₁) (fun c hc => h c (List.mem_cons_of_mem _ hc)) hh₁ hp₁
      obtain ⟨f, hx', hy'⟩ | ⟨xs, d₃, d₄, s₂, hx', hy', hh₂, hp₂⟩ := cases_of_view hr
      · simp only [hx', hy', Except.map]
      · simp only [hx', hy', Except.map, view, hh₂, hp₂]

/-! ## An unchanged directory -/

/-- The entry delivered, if there is one. -/
def Delivery.found? : Delivery → Option Dirent
  | .entry e => some e
  | _ => none

/-- The entries whose names fit, as the calls deliver them. -/
def shown (entries : List (Str × Stat)) : List Dirent :=
  (entries.filter fun e => e.1.length < Dirent.nameSize).map fun e => Dirent.of e.1 e.2

section Unchanged
open Session
variable {fs : FsId} {dirh : DirectoryHandle} {entries : List (Str × Stat)} {At : σ → Nat → Prop}

/-- What is shown of two listings. -/
lemma shown_append (as bs : List (Str × Stat)) : shown (as ++ bs) = shown as ++ shown bs := by
  rw [shown, List.filter_append, List.map_append]
  rfl

/-- One call moves over the entries that it delivers, or over one whose name does not fit. -/
lemma nextEntry_shown {n : Nat} {x : Except ErrorCode (Option Dirent)}
    (un : Unchanged B fs dirh entries At) (hh : d.dirh = dirh)
    (cur : Cursor fs dirh entries At s n) (e : nextEntry B d s = .ok (x, d', s')) :
    ∃ k, Cursor fs dirh entries At s' (n + k) ∧ d'.dirh = dirh ∧
      (Delivery.of x).found?.toList = shown ((entries.drop n).take k) := by
  subst hh
  rw [nextEntry] at e
  cases ho : Pimpl.dirOp B .dirnext d.dirh s with
  | error f =>
    rw [ho] at e
    cases e
  | ok r =>
    obtain ⟨⟨ret, out⟩, s₁⟩ := r
    rw [ho] at e
    obtain ⟨cur₁, hr⟩ := cur.dirOp un (by decide) ho
    rcases un.next cur.cursor with ⟨en, he, hr'⟩ | ⟨hn, hr'⟩ | ⟨h0, h1⟩
    · cases hr.trans hr'
      have hone : (entries.drop n).take 1 = [en] := by
        obtain ⟨hlt, rfl⟩ := List.getElem?_eq_some_iff.mp he
        rw [List.drop_eq_getElem_cons hlt]
        rfl
      simp only [Option.getD_some] at e
      rw [if_neg (fun h => h.1 rfl), if_neg (by decide)] at e
      rw [DirOp.moved, DirOp.code, if_pos rfl] at cur₁
      refine ⟨1, ?_⟩
      rw [hone]
      split at e
      · -- the filesystem is past the name that does not fit
        rename_i hs
        cases e
        refine ⟨cur₁, rfl, ?_⟩
        rw [shown, List.filter_cons_of_neg (by simpa using hs)]
        rfl
      · rename_i hs
        cases e
        refine ⟨cur₁, rfl, ?_⟩
        rw [shown, List.filter_cons_of_pos (by simpa using hs)]
        rfl
    · have hret : ret = ENOENT := by rwa [← hr] at hr'
      subst hret
      simp only at e
      rw [if_neg (fun h => h.2 rfl), if_pos trivial] at e
      cases e
      exact ⟨0, cur₁, rfl, rfl⟩
    · rw [← hr] at h0 h1
      rw [DirOp.moved, DirOp.code, if_neg h0] at cur₁
      simp only at e
      rw [if_pos ⟨h0, h1⟩] at e
      cases e
      exact ⟨0, cur₁, rfl, rfl⟩

/-- The calls deliver the entries from the cursor on, in order and each once. -/
lemma reads_shown {calls : List Read} {n : Nat} {xs : List Delivery}
    (un : Unchanged B fs dirh entries At) (h : ∀ c ∈ calls, c.Given) (hh : d.dirh = dirh)
    (cur : Cursor fs dirh entries At s n) (e : reads B calls d s = .ok (xs, d', s')) :
    ∃ k, Cursor fs dirh entries At s' (n + k) ∧
      xs.filterMap Delivery.found? = shown ((entries.drop n).take k) := by
  induction calls generalizing d s n xs with
  | nil =>
    cases e
    exact ⟨0, cur, rfl⟩
  | cons c calls ih =>
    rw [reads] at e
    have hv := Read.run_view (B := B) (d := d) (s := s) (h c List.mem_cons_self)
    cases hc : c.run B d s with
    | error f =>
      rw [hc] at e
      cases e
    | ok r =>
      obtain ⟨y, d₁, s₁⟩ := r
      rw [hc] at e hv
      obtain ⟨⟨ys, d₂, s₂⟩, e', er⟩ := Pimpl.map_ok e
      cases er
      obtain ⟨⟨x, d₃, s₃⟩, hn, hx⟩ := Pimpl.map_ok hv.symm
      simp only [view, Prod.mk.injEq] at hx
      obtain ⟨rfl, hd, -, rfl⟩ := hx
      obtain ⟨k, cur₁, hh₁, hy⟩ := nextEntry_shown un hh cur hn
      obtain ⟨k', cur₂, hys⟩ := ih (fun c hc => h c (List.mem_cons_of_mem _ hc))
        (hd.symm.trans hh₁) cur₁ e'
      refine ⟨k + k', by rwa [← Nat.add_assoc], ?_⟩
      rw [List.take_add, shown_append, List.drop_drop, ← hys, ← hy]
      cases hent : (Delivery.of x).found? with
      | none => rw [List.filterMap_cons_none hent]; rfl
      | some en => rw [List.filterMap_cons_some hent]; rfl

end Unchanged

/-! ## The two calls -/

/-- On a stream, a refused call agrees only with a filesystem that refuses as well. -/
lemma agrees_null {entry : Dirent} :
    Agrees B (some d) entry none s ↔ AnswersInvalid B (some d) s := by
  rw [Agrees, readdirR, if_pos rfl, readdir]
  cases ho : Pimpl.dirOp B .dirnext d.dirh s with
  | error f =>
    refine iff_of_false nofun ?_
    rintro ⟨d', out, s', hd, ho'⟩
    cases hd
    cases ho.symm.trans ho'
  | ok r =>
    obtain ⟨⟨ret, out⟩, s'⟩ := r
    have hinv : AnswersInvalid B (some d) s ↔ EINVAL = ret := by
      constructor
      · rintro ⟨d', out', s'', hd, ho'⟩
        cases hd
        cases ho.symm.trans ho'
        rfl
      · intro h
        exact ⟨d, out, s', rfl, h ▸ ho⟩
    rw [hinv]
    have hx : deliveredR (⟨⟨-1, entry, none⟩, EINVAL, some d, s⟩ : DirResult σ ReaddirR) =
        .failed EINVAL := rfl
    simp only
    by_cases h : ret ≠ 0 ∧ ret ≠ ENOENT
    · rw [if_pos h]
      simp only [Except.map, hx, delivered_failed h.1, Except.ok.injEq, Prod.mk.injEq,
        Delivery.failed.injEq, and_true]
    · -- the directory has ended, or an entry was found
      have hne : EINVAL ≠ ret := by
        rintro rfl
        exact h ⟨by decide, by decide⟩
      refine iff_of_false ?_ hne
      rw [if_neg h]
      split
      · nofun
      · split
        · simp only [Except.map, hx, delivered_failed (show EOVERFLOW ≠ 0 by decide)]
          simp
        · simp only [Except.map, hx]
          nofun

/-- A call that is not refused agrees. -/
lemma agrees_given {entry : Dirent} {result : Option Dirent} (hr : result ≠ none) :
    Agrees B (some d) entry result s := by
  rw [Agrees, readdirR, if_neg hr, readdir]
  cases Pimpl.dirOp B .dirnext d.dirh s with
  | error f => rfl
  | ok r =>
    obtain ⟨⟨ret, out⟩, s'⟩ := r
    simp only
    split
    · rename_i h
      simp only [Except.map, delivered_failed h.1]
      rfl
    · split
      · rfl
      · split
        · rfl
        · rfl

/-- `readdir_r` agrees with `readdir` exactly if it is given no null `*result`, up to what both refuse;
and any interleaving of such calls delivers what that many calls of `readdir` would, on an unchanged
directory each entry once and in order, but for names that do not fit. -/
theorem agrees_iff (B : Backend σ) (dirp : Option Dirstream) (entry : Dirent)
    (result : Option Dirent) (s : Pimpl σ) :
    (Agrees B dirp entry result s ↔ dirp = none ∨ result ≠ none ∨ AnswersInvalid B dirp s) ∧
      ∀ calls d, (∀ c ∈ calls, Read.Given c) →
        (reads B calls d s).map view =
            (reads B (calls.map fun _ => .readdir) d s).map view ∧
          ∀ fs entries At n xs d' s', Session.Unchanged B fs d.dirh entries At →
            Session.Cursor fs d.dirh entries At s n → reads B calls d s = .ok (xs, d', s') →
            ∃ k, Session.Cursor fs d.dirh entries At s' (n + k) ∧
              xs.filterMap Delivery.found? = shown ((entries.drop n).take k) := by
  constructor
  · cases dirp with
    | none => exact iff_of_true rfl (.inl rfl)
    | some d =>
      by_cases hr : result = none
      · subst hr
        rw [agrees_null]
        simp
      · exact iff_of_true (agrees_given hr) (.inr (.inl hr))
  · intro calls d h
    refine ⟨reads_view h rfl rfl, ?_⟩
    intro fs entries At n xs d' s' un cur e
    exact reads_shown un h rfl cur e

/-- At an entry, a null `*result` makes `readdir_r` fail where `readdir` returns the entry. -/
theorem not_agrees_nullResult :
    ¬ Agrees (Session.listing Session.twoEntries 0)
      (some (Session.openedRoot (Session.listing Session.twoEntries 0)).dirp) {} none
      (Session.openedRoot (Session.listing Session.twoEntries 0)).vfs := by
  rw [Agrees]
  decide +kernel

end Syscalls.Apart
end Evfs
