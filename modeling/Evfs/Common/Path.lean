import Evfs.Common.Defs
import Mathlib.Data.List.Infix
import Mathlib.Data.List.MinMax

/-!
# Paths

The part of `std::filesystem::path` that `lib/common/vfs.cpp` relies on, for paths with `/` as the
only separator and no root names. `lexicallyNormal` follows the documented algorithm: separators are
merged, `.` is dropped, `..` cancels the name before it (and vanishes behind the root directory),
and a trailing separator stays where the last name was empty, `.` or a cancelling `..`.

`Under` is the relation of a whole-component prefix, the abstract notion of a path lying below a
mounted root. `ownerRoot` picks the longest such root.
-/

namespace Evfs
namespace Path

/-- What lies between the separators. -/
def splitNames (p : Str) : List Str := p.splitOn '/'

/-- The names of a path. -/
def names (p : Str) : List Str := (splitNames p).filter (· ≠ [])

def dot : Str := ['.']

def dotDot : Str := ['.', '.']

/-- A path that starts at the root directory (`path::has_root_path`). -/
def hasRootPath (p : Str) : Bool := p.head? = some '/'

/-- One name against the names kept so far, the latest first. -/
def normStep (rooted : Bool) (st : List Str) (n : Str) : List Str :=
  if n = [] ∨ n = dot then st
  else if n = dotDot then
    match st with
    | [] => if rooted then [] else [n]
    | top :: rest => if top = dotDot then n :: st else rest
  else n :: st

/-- Is the last name one that leaves a trailing separator? -/
def endsInDir (raw : List Str) : Bool :=
  match raw.getLast? with
  | some n => n = [] ∨ n = dot ∨ n = dotDot
  | none => false

/-- The path with the given names. -/
def render (rooted : Bool) (ns : List Str) (trailing : Bool) : Str :=
  ['/'].intercalate ((if rooted then [[]] else []) ++ ns ++
    (if trailing ∨ (rooted ∧ ns = []) then [[]] else []))

/-- Normal form of a path (`path::lexically_normal`). -/
def lexicallyNormal (p : Str) : Str :=
  if p = [] then []
  else
    let raw := splitNames p
    let st := raw.foldl (normStep (hasRootPath p)) []
    let trailing := endsInDir raw && decide (st ≠ [] ∧ st.head? ≠ some dotDot)
    let s := render (hasRootPath p) st.reverse trailing
    if s = [] then dot else s

example : lexicallyNormal "/a//./b/../c".toList = "/a/c".toList := by decide

example : lexicallyNormal "/a/b/..".toList = "/a/".toList := by decide

example : lexicallyNormal "/../a/../..".toList = "/".toList := by decide

/-- A name that normalization keeps. -/
structure Proper (n : Str) : Prop where
  ne_nil : n ≠ []
  ne_dot : n ≠ dot
  ne_dotDot : n ≠ dotDot
  noSlash : '/' ∉ n

/-- The names kept of a path at the root directory, the latest first. -/
def kept (p : Str) : List Str := (splitNames p).foldl (normStep true) []

/-- The names have no slashes. -/
lemma noSlash_of_mem_splitNames {p n : Str} (h : n ∈ splitNames p) : '/' ∉ n := by
  induction p generalizing n with
  | nil =>
    simp only [splitNames, List.splitOn_nil, List.mem_singleton] at h
    subst h
    exact List.not_mem_nil
  | cons c p ih =>
    simp only [splitNames, List.splitOn_cons_eq_if_modifyHead] at h
    split at h
    · rcases List.mem_cons.mp h with e | h
      · subst e; exact List.not_mem_nil
      · exact ih h
    · rename_i hc
      obtain ⟨m, ms, e⟩ := List.exists_cons_of_ne_nil (List.splitOn_ne_nil '/' p)
      rw [e, List.modifyHead_cons] at h
      rcases List.mem_cons.mp h with e' | h
      · subst e'
        have hm : '/' ∉ m := ih (by rw [splitNames, e]; exact List.mem_cons_self)
        have hc' : c ≠ '/' := by simpa using hc
        simp [hm, hc'.symm]
      · exact ih (by rw [splitNames, e]; exact List.mem_cons_of_mem _ h)

/-- A leading slash is an empty name. -/
lemma splitNames_cons_slash (p : Str) : splitNames ('/' :: p) = [] :: splitNames p := by
  rw [splitNames, List.splitOn_cons_eq_if_modifyHead]
  simp [splitNames]

/-- The names determine the path. -/
lemma splitNames_inj {p q : Str} (h : splitNames p = splitNames q) : p = q := by
  have e := congrArg (List.intercalate ['/']) h
  rwa [splitNames, splitNames, List.intercalate_splitOn, List.intercalate_splitOn] at e

/-- A step of normalising keeps proper names. -/
lemma normStep_proper {st : List Str} {n : Str} (hn : '/' ∉ n) (h : ∀ m ∈ st, Proper m) :
    ∀ m ∈ normStep true st n, Proper m := by
  unfold normStep
  split
  · exact h
  · rename_i h1
    push Not at h1
    split
    · cases st with
      | nil => exact h
      | cons top rest =>
        have ht := h top List.mem_cons_self
        simp only [ht.ne_dotDot, if_false]
        exact fun m hm => h m (List.mem_cons_of_mem _ hm)
    · rename_i h2
      intro m hm
      rcases List.mem_cons.mp hm with e | hm
      · subst e; exact ⟨h1.1, h1.2, h2, hn⟩
      · exact h m hm

/-- So does all of it. -/
lemma foldl_normStep_proper {ns st : List Str} (hn : ∀ n ∈ ns, '/' ∉ n) (h : ∀ m ∈ st, Proper m) :
    ∀ m ∈ ns.foldl (normStep true) st, Proper m := by
  induction ns generalizing st with
  | nil => exact h
  | cons n ns ih =>
    apply ih (fun m hm => hn m (List.mem_cons_of_mem _ hm))
    exact normStep_proper (hn n List.mem_cons_self) h

/-- Only proper names are kept. -/
lemma kept_proper (p : Str) : ∀ n ∈ kept p, Proper n :=
  foldl_normStep_proper (fun _ => noSlash_of_mem_splitNames) (by simp)

/-- Proper names are all kept. -/
lemma foldl_normStep_of_proper {ns st : List Str} (h : ∀ n ∈ ns, Proper n) :
    ns.foldl (normStep true) st = ns.reverse ++ st := by
  induction ns generalizing st with
  | nil => rfl
  | cons n ns ih =>
    have hn := h n List.mem_cons_self
    rw [List.foldl_cons, ih fun m hm => h m (List.mem_cons_of_mem _ hm)]
    simp [normStep, hn.ne_nil, hn.ne_dot, hn.ne_dotDot]

/-- The names of a path put together. -/
lemma splitNames_render {ns : List Str} {t : Bool} (h : ∀ n ∈ ns, Proper n) :
    splitNames (render true ns t) = [] :: ns ++ (if t ∨ ns = [] then [[]] else []) := by
  simp only [splitNames, render, if_true, true_and]
  apply List.splitOn_intercalate
  · intro l hl
    simp only [List.cons_append, List.nil_append, List.mem_cons, List.mem_append] at hl
    rcases hl with e | hl | hl
    · subst e; exact List.not_mem_nil
    · exact (h l hl).noSlash
    · split at hl
      · rw [List.mem_singleton.mp hl]; exact List.not_mem_nil
      · cases hl
  · simp

/-- Nothing of it is dropped. -/
lemma kept_render {ns : List Str} {t : Bool} (h : ∀ n ∈ ns, Proper n) :
    kept (render true ns t) = ns.reverse := by
  rw [kept, splitNames_render h, List.cons_append, List.foldl_cons, List.foldl_append,
    foldl_normStep_of_proper h]
  split <;> simp [normStep]

/-- It is absolute. -/
lemma hasRootPath_render {ns : List Str} {t : Bool} : hasRootPath (render true ns t) = true := by
  cases ns with
  | nil => simp [render, hasRootPath]
  | cons n ns => simp [render, hasRootPath, List.intercalate_cons_cons]

/-- Does the normal form of a rooted path end in a separator behind a name? -/
def trails (p : Str) : Bool := endsInDir (splitNames p) && decide (kept p ≠ [])

/-- The normal form of a rooted path is its kept names, rendered. -/
lemma lexicallyNormal_rooted {p : Str} (r : hasRootPath p = true) :
    lexicallyNormal p = render true (kept p).reverse (trails p) := by
  have hp : p ≠ [] := by
    rintro rfl
    cases r
  have hs : render true (kept p).reverse (trails p) ≠ [] := by
    intro e
    have h : hasRootPath (render true (kept p).reverse (trails p)) = true := hasRootPath_render
    rw [e] at h
    cases h
  have hd : (kept p).head? ≠ some dotDot := by
    intro e
    exact (kept_proper p dotDot (List.mem_of_mem_head? e)).ne_dotDot rfl
  have ht : (endsInDir (splitNames p) && decide (kept p ≠ [] ∧ (kept p).head? ≠ some dotDot))
      = trails p := by
    simp [trails, hd]
  simp only [lexicallyNormal, if_neg hp, r]
  rw [← kept, ht, if_neg hs]

/-- The normal form of an absolute path is absolute. -/
lemma hasRootPath_lexicallyNormal {p : Str} (r : hasRootPath p = true) :
    hasRootPath (lexicallyNormal p) = true := by
  rw [lexicallyNormal_rooted r]
  exact hasRootPath_render

/-- It ends in a slash when it is said to. -/
lemma trails_render {ns : List Str} {t : Bool} (h : ∀ n ∈ ns, Proper n) :
    trails (render true ns t) = (t && decide (ns ≠ [])) := by
  rw [trails, splitNames_render h, kept_render h]
  cases hns : ns.getLast? with
  | none =>
    rw [List.getLast?_eq_none_iff.mp hns]
    simp
  | some n =>
    have hn := h n (List.mem_of_getLast? hns)
    have hne : ns ≠ [] := by
      rintro rfl
      cases hns
    have e : ([] :: ns).getLast? = some n := by rw [List.getLast?_cons, hns]; rfl
    have e' : ([] :: (ns ++ [([] : Str)])).getLast? = some [] :=
      List.getLast?_concat (l := [] :: ns)
    cases t
    · simp [endsInDir, hne, e, hn.ne_nil, hn.ne_dot, hn.ne_dotDot]
    · simp [endsInDir, hne, e']

/-- What lies between the separators of a normal form: proper names, and nothing at the ends. -/
lemma proper_of_mem_splitNames {p n : Str} (r : hasRootPath p = true)
    (h : n ∈ splitNames (lexicallyNormal p)) : n = [] ∨ Proper n := by
  have hk : ∀ n ∈ (kept p).reverse, Proper n := fun n hn => kept_proper p n (List.mem_reverse.mp hn)
  rw [lexicallyNormal_rooted r, splitNames_render hk] at h
  rcases List.mem_cons.mp h with e | h
  · exact .inl e
  · rcases List.mem_append.mp h with h | h
    · exact .inr (hk n h)
    · split at h
      · exact .inl (List.mem_singleton.mp h)
      · cases h

/-- The names behind a separator are names of the path. -/
lemma mem_splitNames_append {p q n : Str} (h : n ∈ splitNames q) :
    n ∈ splitNames (p ++ '/' :: q) := by
  rw [splitNames, List.splitOn_append_cons_self]
  exact List.mem_append_right _ h

/-- A normal form is its own normal form. -/
theorem lexicallyNormal_idem {p : Str} (r : hasRootPath p = true) :
    lexicallyNormal (lexicallyNormal p) = lexicallyNormal p := by
  have h : ∀ n ∈ (kept p).reverse, Proper n := fun n hn => kept_proper p n (List.mem_reverse.mp hn)
  rw [lexicallyNormal_rooted (hasRootPath_lexicallyNormal r), lexicallyNormal_rooted r,
    kept_render h, trails_render h, List.reverse_reverse]
  congr 1
  simp [trails]

/-- `r` is `p` or a whole-component prefix of it. -/
def Under (r p : Str) : Prop := hasRootPath r = true ∧ names r <+: names p

instance (r p : Str) : Decidable (Under r p) := inferInstanceAs (Decidable (_ ∧ _))

/-- The longest of the roots that `p` lies under. -/
def ownerRoot (roots : List Str) (p : Str) : Option Str :=
  (roots.filter fun r => Under r p).argmax List.length

example : ownerRoot ["/vol".toList, "/vol/a".toList, "/vol1".toList] "/vol/a/f".toList
    = some "/vol/a".toList := by decide

/-- The owner is a root that the path is under. -/
lemma mem_of_ownerRoot {roots : List Str} {p r : Str} (e : ownerRoot roots p = some r) :
    r ∈ roots ∧ Under r p := by
  have h := List.argmax_mem e
  simpa using List.mem_filter.mp h

/-- No root that `p` lies under is longer. -/
lemma length_le_of_ownerRoot {roots : List Str} {p r r' : Str} (e : ownerRoot roots p = some r)
    (h : r' ∈ roots) (u : Under r' p) : r'.length ≤ r.length :=
  List.le_of_mem_argmax (List.mem_filter.mpr ⟨h, by simpa using u⟩) e

end Path
end Evfs
