import Mathlib.Data.List.DropRight
import Perception.Model.Retrieval
import Perception.Proofs.Files.Written

set_option autoImplicit false

/-! # Where artifacts are

A path keeps plain names as they are written (`Path.ofString_plain`). So the directory of an
artifact with plain names is below that of its repository, name by name
(`Repository.resolve_plain`), and its address is that of the repository with the same names behind
it (`Repository.urlOf_plain`).
-/

namespace Perception

/-- A name that leads down: it is not empty, has no slashes, and is neither one dot nor two. -/
structure IsPlain (n : String) : Prop where
  notEmpty : n ≠ ""
  noSlash : '/' ∉ n.toList
  notDot : n ≠ "."
  notDots : n ≠ ".."

instance (n : String) : Decidable (IsPlain n) :=
  decidable_of_iff (n ≠ "" ∧ '/' ∉ n.toList ∧ n ≠ "." ∧ n ≠ "..")
    ⟨fun ⟨h, h', h'', h'''⟩ => ⟨h, h', h'', h'''⟩, fun ⟨h, h', h'', h'''⟩ => ⟨h, h', h'', h'''⟩⟩

def Artifact.IsPlain (a : Artifact) : Prop := ∀ s ∈ a.segments, Perception.IsPlain s

/-! ## Paths of plain names -/

/-- **A plain name is a path of its own.** -/
theorem Path.ofString_plain {n : String} (h : IsPlain n) : Path.ofString n = ⟨.relative, [n]⟩ := by
  have hname : ∀ m ∈ [n], IsName m := by
    intro m hm
    rw [List.mem_singleton.mp hm]
    exact ⟨h.notEmpty, h.notDot, h.noSlash⟩
  have halone : ['/'].intercalate ([n].map String.toList) = n.toList := by simp
  have hhead := head?_intercalate hname
  have hread := namesOf_intercalate hname
  rw [halone] at hhead hread
  exact ofChars_eq (rootOf_relative hhead) hread

theorem Path.extend_plain (p : Path) {ns : List String} (h : ∀ n ∈ ns, IsPlain n) :
    p.extend ns = ⟨p.root, p.names ++ ns⟩ := by
  induction ns generalizing p with
  | nil =>
      rw [List.append_nil]
      rfl
  | cons n ns ih =>
      have hfirst : p.extend (n :: ns) = (p.join (Path.ofString n)).extend ns := rfl
      have hjoin : p.join (Path.ofString n) = ⟨p.root, p.names ++ [n]⟩ := by
        rw [Path.ofString_plain (h n List.mem_cons_self)]
        rfl
      rw [hfirst, hjoin, ih _ fun m hm => h m (List.mem_cons_of_mem _ hm), List.append_assoc,
        List.singleton_append]

/-- The directory of an artifact with plain names is made of them. -/
theorem Artifact.path_plain {a : Artifact} (ha : a.IsPlain) : a.path = ⟨.relative, a.segments⟩ := by
  rw [path, Path.extend_plain _ ha, List.nil_append]

theorem Artifact.segments_ne_nil (a : Artifact) : a.segments ≠ [] :=
  List.append_ne_nil_of_right_ne_nil _ (List.cons_ne_nil _ _)

namespace Repository

variable {r : Repository} {a : Artifact} {n : String}

/-- **The directory of an artifact** is that of the repository, and below it the names of the
artifact. -/
theorem resolve_plain (ha : a.IsPlain) :
    r.resolve a = ⟨r.root.root, r.root.names ++ a.segments⟩ := by
  rw [resolve, Artifact.path_plain ha]
  rfl

theorem fileOf_plain (hn : IsPlain n) :
    r.fileOf a n = ⟨(r.resolve a).root, (r.resolve a).names ++ [n]⟩ := by
  rw [fileOf, Path.ofString_plain hn]
  rfl

theorem parent_fileOf (hn : IsPlain n) : (r.fileOf a n).parent = r.resolve a := by
  rw [fileOf_plain hn, Path.parent, List.dropLast_concat]

theorem name_fileOf (hn : IsPlain n) : (r.fileOf a n).name = n := by
  rw [fileOf_plain hn, Path.name, List.getLast?_concat]
  rfl

/-! ## Addresses -/

/-- **The address of a file** is the base without the slashes at its end, and behind it the names of
the artifact and that of the file. -/
theorem urlOf_plain (ha : a.IsPlain) :
    ∃ stem slashes : List Char, r.base.toList = stem ++ slashes ∧ (∀ c ∈ slashes, c = '/') ∧
      stem.getLast? ≠ some '/' ∧
      ∀ n, r.urlOf a n
        = String.ofList stem ++ "/" ++ "/".intercalate a.segments ++ "/" ++ n := by
  let slash : Char → Bool := (· = '/')
  have hstem : Text.dropEndWhile slash r.base.toList = r.base.toList.rdropWhile slash := rfl
  refine ⟨r.base.toList.rdropWhile slash, r.base.toList.rtakeWhile slash,
    List.rdropWhile_append_rtakeWhile.symm, fun c hc => ?_, fun hlast => ?_,
    fun n => ?_⟩
  · exact of_decide_eq_true (List.mem_rtakeWhile_imp hc : slash c = true)
  · have hne : r.base.toList.rdropWhile slash ≠ [] := by
      intro hnil
      rw [hnil] at hlast
      cases hlast
    rw [List.getLast?_eq_some_getLast hne] at hlast
    exact List.rdropWhile_last_not slash _ hne (decide_eq_true (Option.some.inj hlast))
  · have hpath : a.path.toString = "/".intercalate a.segments := by
      rw [Artifact.path_plain ha, Path.toString, if_neg fun h => a.segments_ne_nil h.2]
      exact String.empty_append
    rw [urlOf, hpath, ← hstem]

end Repository

end Perception
