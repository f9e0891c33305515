import Evfs.Fstypes.Methods

/-!
# Paths handed to lwext4

The strings that the methods of `filesystem_lwext4` hand down for the paths they are given, read off
their runs (`Hands`). Only `stat`, `fstat` and `diropen` go through `to_native_path` (`Hands.string`).
What is registered for a root is the root with a separator behind it, and the rest is about when that
is a prefix of a path in normal form.
-/

namespace Evfs
open Lib

namespace Path

/-- Names, each behind one separator, and nothing else. -/
def Plain (r : Str) : Prop := splitNames r = [] :: names r

instance (r : Str) : Decidable (Plain r) := inferInstanceAs (Decidable (_ = _))

/-- An absolute path begins with an empty name. -/
lemma splitNames_rooted {p : Str} (h : hasRootPath p = true) :
    ∃ ns, splitNames p = [] :: ns ∧ ns ≠ [] := by
  cases p with
  | nil => cases h
  | cons c p =>
    obtain rfl : c = '/' := by simpa [hasRootPath] using h
    exact ⟨splitNames p, splitNames_cons_slash p, List.splitOn_ne_nil _ _⟩

/-- The names on both sides of a slash. -/
lemma names_append_slash (p q : Str) : names (p ++ '/' :: q) = names p ++ names q := by
  simp only [names, splitNames, List.splitOn_append_cons_self, List.filter_append]

/-- A path that starts with a root and a separator lies under the root. -/
lemma Under.of_slash {r p : Str} (h : r ++ ['/'] <+: p) (hr : hasRootPath r = true) :
    Under r p := by
  obtain ⟨q, rfl⟩ := h
  rw [List.append_assoc]
  exact ⟨hr, names_append_slash r q ▸ List.prefix_append _ _⟩

/-- A list of names, with an empty one at the end or not. -/
lemma splitNames_normal {p : Str} (r : hasRootPath p = true) :
    ∃ ns t, (∀ n ∈ ns, Proper n) ∧ t.length ≤ 1 ∧ (∀ n ∈ t, n = []) ∧
      splitNames (lexicallyNormal p) = [] :: (ns ++ t) := by
  have hk : ∀ n ∈ (kept p).reverse, Proper n := fun n hn => kept_proper p n (List.mem_reverse.mp hn)
  rw [lexicallyNormal_rooted r, splitNames_render hk]
  refine ⟨(kept p).reverse, _, hk, ?_, ?_, rfl⟩
  · split <;> simp
  · split <;> simp

/-- Proper names are not empty. -/
lemma filter_proper {ns : List Str} (h : ∀ n ∈ ns, Proper n) : ns.filter (· ≠ []) = ns :=
  List.filter_eq_self.mpr fun n hn => by simpa using (h n hn).ne_nil

/-- A normal form starts with a root it lies under, and a separator, exactly if the root is plain
and not the path itself. -/
lemma prefix_normal_iff {r p : Str} (hp : hasRootPath p = true) (u : Under r (lexicallyNormal p)) :
    r ++ ['/'] <+: lexicallyNormal p ↔ Plain r ∧ lexicallyNormal p ≠ r := by
  obtain ⟨ns, t, hns, ht, he, hs⟩ := splitNames_normal hp
  obtain ⟨m, hm, -⟩ := splitNames_rooted u.1
  constructor
  · rintro ⟨q, e⟩
    have e' : splitNames r ++ splitNames q = [] :: (ns ++ t) := by
      rw [← hs, ← e, List.append_assoc, splitNames, splitNames]
      exact (List.splitOn_append_cons_self _ _).symm
    rw [hm, List.cons_append, List.cons.injEq] at e'
    have hq : splitNames q ≠ [] := List.splitOn_ne_nil _ _
    have hl := congrArg List.length e'.2
    have hq' := List.length_pos_of_ne_nil hq
    simp only [List.length_append] at hl
    -- the names of the root are names of the path: at most one name comes behind those
    have pre : m <+: ns := by
      have h₁ : m <+: ns ++ t := e'.2 ▸ List.prefix_append _ _
      exact List.prefix_of_prefix_length_le h₁ (List.prefix_append _ _) (by omega)
    refine ⟨?_, fun e'' => ?_⟩
    · have hm' : m.filter (· ≠ []) = m := filter_proper fun n hn => hns n (pre.subset hn)
      rw [Plain, names, hm, List.filter_cons_of_neg (by simp), hm']
    · have h := congrArg List.length (e.trans e'')
      simp only [List.length_append, List.length_cons, List.length_nil] at h
      omega
  · rintro ⟨pl, ne⟩
    have hn : names (lexicallyNormal p) = ns := by
      have ht' : t.filter (· ≠ []) = [] := List.filter_eq_nil_iff.mpr fun n h => by simp [he n h]
      rw [names, hs, List.filter_cons_of_neg (by simp), List.filter_append, filter_proper hns, ht',
        List.append_nil]
    obtain ⟨ns', hns'⟩ := u.2
    rw [hn] at hns'
    have hne : ns' ++ t ≠ [] := by
      intro h
      apply ne
      apply splitNames_inj
      obtain ⟨rfl, rfl⟩ := List.append_eq_nil_iff.mp h
      rw [hs, pl, ← hns', List.append_nil, List.append_nil]
    have noSlash : ∀ n ∈ ns' ++ t, '/' ∉ n := by
      intro n h
      rcases List.mem_append.mp h with h | h
      · exact (hns n (hns' ▸ List.mem_append_right _ h)).noSlash
      · rw [he n h]
        exact List.not_mem_nil
    have e : splitNames (r ++ '/' :: ['/'].intercalate (ns' ++ t)) = [] :: (ns ++ t) := by
      rw [splitNames, List.splitOn_append_cons_self, List.splitOn_intercalate _ noSlash hne,
        ← splitNames, pl, ← hns', List.cons_append, List.append_assoc]
    refine ⟨['/'].intercalate (ns' ++ t), ?_⟩
    rw [List.append_assoc]
    exact splitNames_inj (e.trans hs.symm)

end Path

namespace Lwext4
namespace FilesystemLwext4

/-- A method call hands down a string for a path, to a function of lwext4 that it calls in `w'`. -/
def Hands (bl : BlockLayer) (fs : FsId) (o : Object) (c : Call) (w : World) (path native : Str)
    (w' : World) : Prop :=
  ∃ f : Ext4Fn, (f, w') ∈ (method fs o c).trace (eval bl fs o) w ∧ ⟨path, native⟩ ∈ f.args

/-- The methods that go through `to_native_path`. -/
def translates : Call → Bool
  | .file .fstat _ => true
  | .path .stat _ => true
  | .diropen _ => true
  | _ => false

/-- A method mounts nothing, and translates all of its paths or none. -/
def handsDown (translated : Bool) (root : Str) : Prog.Discipline Ext4Fn Ext4Fn.Res Unit where
  next _ _ _ := ()
  Req f _ := (∀ c, f = .other c → mounting c = false) ∧
    ∀ a ∈ f.args, a.native = if translated then toNativePath root a.path else a.path
  Poss _ _ := True

variable {bl : BlockLayer} {fs : FsId} {o : Object} {c : Call} {w w' : World} {path n : Str}

/-- A function whose paths are given as they are. -/
lemma req_cStr {root : Str} {f : Ext4Fn} (hf : ∀ c, f ≠ .other c)
    (h : ∀ a ∈ f.args, a.native = a.path) : (handsDown false root).Req f () :=
  ⟨fun c e => absurd e (hf c), fun a ha => h a ha⟩

/-- One path that is given as it is. -/
lemma native_cStr {p : Str} : ∀ a ∈ [PathArg.cStr p], a.native = a.path := by
  intro a ha
  cases List.mem_singleton.mp ha
  rfl

/-- Two paths that are given as they are. -/
lemma native_cStr₂ {p q : Str} : ∀ a ∈ [PathArg.cStr p, PathArg.cStr q], a.native = a.path := by
  intro a ha
  rcases List.mem_cons.mp ha with rfl | ha
  · rfl
  · exact native_cStr a ha

/-- One function whose paths are given as they are. -/
lemma safe_cStr {root : Str} {f : Ext4Fn} (hf : ∀ c, f ≠ .other c)
    (h : ∀ a ∈ f.args, a.native = a.path) :
    (perform f).Safe (handsDown false root) (fun _ _ => True) () :=
  Prog.safe_perform.mpr ⟨req_cStr hf h, fun _ _ => trivial⟩

/-- `open` hands its path down as it is. -/
lemma safe_open {flags : Flags} :
    (Method.open fs o path flags).Safe (handsDown false o.root) (fun _ _ => True) () := by
  refine Prog.Safe.op (req_cStr nofun native_cStr) fun r _ => ?_
  cases r with
  | error e => trivial
  | ok raw =>
    refine Prog.Safe.op (req_cStr nofun nofun) fun _ _ => ?_
    exact Prog.Safe.op (req_cStr nofun native_cStr) fun _ _ => trivial

/-- So does `close`, with the path of the handle. -/
lemma safe_close {h : FileHandle} :
    (Method.close h).Safe (handsDown false o.root) (fun _ _ => True) () := by
  refine Prog.Safe.op (req_cStr nofun nofun) fun _ _ => ?_
  refine Prog.Safe.op (req_cStr nofun nofun) fun _ _ => ?_
  exact safe_cStr nofun native_cStr

/-- `stat` hands down what `to_native_path` makes of its path. -/
lemma safe_stat : (Method.stat o path).Safe (handsDown true o.root) (fun _ _ => True) () := by
  have req : (handsDown true o.root).Req (.rawInodeFill (.toNative o.root path)) () := by
    refine ⟨nofun, fun a ha => ?_⟩
    cases List.mem_singleton.mp ha
    rfl
  refine Prog.Safe.op req fun r _ => ?_
  cases r with
  | error e => trivial
  | ok r =>
    have req : (handsDown true o.root).Req (.getSblock (toNativeRoot o.root)) () := ⟨nofun, nofun⟩
    exact Prog.Safe.op req fun _ _ => trivial

/-- `unlink` hands its path down as it is, to either function. -/
lemma safe_unlink : (Method.unlink path).Safe (handsDown false o.root) (fun _ _ => True) () := by
  refine Prog.Safe.op (req_cStr nofun native_cStr) fun r _ => ?_
  cases r with
  | true => exact safe_cStr nofun native_cStr
  | false => exact safe_cStr nofun native_cStr

/-- So does `chmod`, twice. -/
lemma safe_chmod {mode : Nat} :
    (Method.chmod path mode).Safe (handsDown false o.root) (fun _ _ => True) () := by
  refine Prog.Safe.op (req_cStr nofun native_cStr) fun e _ => ?_
  split
  · trivial
  · refine Prog.Safe.op (req_cStr nofun nofun) fun _ _ => ?_
    exact Prog.Safe.op (req_cStr nofun native_cStr) fun _ _ => trivial

/-- `diropen` hands down what `to_native_path` makes of its path. -/
lemma safe_diropen :
    (Method.diropen fs o path).Safe (handsDown true o.root) (fun _ _ => True) () := by
  have req : (handsDown true o.root).Req (.dirOpen (.toNative o.root path)) () := by
    refine ⟨nofun, fun a ha => ?_⟩
    cases List.mem_singleton.mp ha
    rfl
  exact Prog.Safe.op req fun _ _ => trivial

/-- A method that is one step, and hands down no path. -/
lemma safe_other {t : Bool} (h : mounting c = false) :
    (perform (.other c)).Safe (handsDown t o.root) (fun _ _ => True) () :=
  Prog.safe_perform.mpr ⟨⟨fun _ e => by cases e; exact h, nofun⟩, fun _ _ => trivial⟩

/-- The methods keep to this. -/
lemma safe_method (h : mounting c = false) :
    (method fs o c).Safe (handsDown (translates c) o.root) (fun _ _ => True) () := by
  cases c with
  | mount r fl => cases h
  | unmount => cases h
  | «open» abspath flags mode => exact safe_open
  | file op h =>
    cases op with
    | close => exact safe_close
    | fstat => exact safe_stat
    | fchmod mode => exact safe_chmod
    | _ => exact safe_other rfl
  | path op path =>
    cases op with
    | stat => exact safe_stat
    | link newlink => exact safe_cStr nofun native_cStr₂
    | symlink newlink => exact safe_cStr nofun native_cStr
    | unlink => exact safe_unlink
    | rmdir => exact safe_cStr nofun native_cStr
    | mkdir mode => exact safe_cStr nofun native_cStr
    | chmod mode => exact safe_chmod
    | _ => exact safe_other rfl
  | rename old new => exact safe_cStr nofun native_cStr₂
  | diropen path => exact safe_diropen
  | _ => exact safe_other rfl

/-- A function that mounts nothing leaves the tables of lwext4 alone. -/
lemma confined_eval {f : Ext4Fn} {r : f.Res} (h : ∀ c, f = .other c → mounting c = false)
    (e : eval bl fs o f w = .ok (r, w')) : Confined (fun _ => True) w w' := by
  have any : ∀ {α : Type} {r : α × World}, Confined (fun _ => True) w r.2 → ∀ {a},
      (Except.ok r : Except Empty (α × World)) = .ok (a, w') → Confined (fun _ => True) w w' := by
    rintro α r c a e
    cases e
    exact c
  cases f with
  | fopen2 path flags =>
    have c : Confined (fun _ => True) w (w.ext4Fopen2 bl path.native flags).2 :=
      World.confined_fopen2 fun _ _ => trivial
    simp only [eval] at e
    split at e
    · rename_i he
      rw [he] at c
      cases e
      exact c
    · rename_i he
      rw [he] at c
      exact any (c.trans .own) e
  | fclose raw => exact any .own e
  | atimeSet path atime =>
    exact any (r := w.ext4AtimeSet bl path.native atime) (World.confined_change fun _ _ => trivial) e
  | mtimeSet path mtime =>
    exact any (r := w.ext4MtimeSet bl path.native mtime) (World.confined_change fun _ _ => trivial) e
  | modeSet path mode =>
    exact any (r := w.ext4ModeSet bl path.native mode) (World.confined_change fun _ _ => trivial) e
  | rawInodeFill path => exact any .refl e
  | getSblock mountPoint => exact any .refl e
  | inodeExist path type => exact any .refl e
  | flink path hardlinkPath => exact any (World.confined_flink fun _ _ => trivial) e
  | fsymlink target path =>
    exact any (r := w.ext4Fsymlink bl target path.native) (World.confined_change fun _ _ => trivial) e
  | fremove path =>
    exact any (r := w.ext4Fremove bl path.native) (World.confined_change fun _ _ => trivial) e
  | dirRm path => exact any (World.confined_change fun _ _ => trivial) e
  | dirMk path =>
    exact any (r := w.ext4DirMk bl path.native) (World.confined_change fun _ _ => trivial) e
  | frename path newPath =>
    exact any (World.confined_frename (fun _ _ => trivial) fun _ _ _ _ => trivial) e
  | dirOpen path =>
    simp only [eval] at e
    split at e
    · exact any .refl e
    · exact any .own e
  | getPosixTime => exact any .own e
  | other c => exact any (confined_call bl fs o (h c rfl)) e

/-- What is handed down, and the tables it is looked up in. -/
lemma Hands.string (h : Hands bl fs o c w path n w') :
    w'.sMp = w.sMp ∧ n = if translates c then toNativePath o.root path else path := by
  obtain ⟨f, hf, ha⟩ := h
  cases hm : mounting c with
  | true =>
    cases c with
    | mount r fl =>
      cases List.mem_singleton.mp hf
      cases ha
    | unmount =>
      cases List.mem_singleton.mp hf
      cases ha
    | _ => cases hm
  | false =>
    obtain ⟨t, -, -, req⟩ := (safe_method hm).trace (I := fun w' => w'.sMp = w.sMp)
      (fun _ _ => trivial) (fun req e t => (confined_eval req.1 e).sMp.trans t) rfl hf
    exact ⟨t, req _ ha⟩

end FilesystemLwext4
end Lwext4
end Evfs
