import Perception.Files.Path
import Perception.Proofs.Text.Split

set_option autoImplicit false

/-! # Paths as they are written

The names of a path that was read from a text are not empty, are no single dots and have no slashes
(`Path.isName_of_isWritten`). Such a path is read again from the text that it is written as
(`Path.ofString_toString`).
-/

namespace Perception.Path

variable {p : Path} {ns : List String} {cs : List Char}

/-- A name that a written path keeps. -/
structure IsName (n : String) : Prop where
  notEmpty : n ≠ ""
  notDot : n ≠ "."
  noSlash : '/' ∉ n.toList

/-- Some text names the path. -/
def IsWritten (p : Path) : Prop := ∃ s, ofString s = p

theorem not_isTrivial_iff {name : List Char} :
    isTrivial name = false ↔ name ≠ [] ∧ name ≠ ['.'] := by
  simp [isTrivial]

/-- **The names of a path that was read** are kept by it. -/
theorem isName_of_isWritten (h : p.IsWritten) : ∀ n ∈ p.names, IsName n := by
  obtain ⟨s, rfl⟩ := h
  intro n hn
  obtain ⟨name, hname, rfl⟩ := List.mem_map.mp hn
  obtain ⟨hpart, hkept⟩ := List.mem_filter.mp hname
  obtain ⟨hempty, hdot⟩ := not_isTrivial_iff.mp (Bool.not_eq_true' _ ▸ hkept)
  refine ⟨fun heq => hempty ?_, fun heq => hdot ?_, ?_⟩
  · exact (String.toList_ofList).symm.trans (congrArg String.toList heq)
  · exact (String.toList_ofList).symm.trans (congrArg String.toList heq)
  · rw [String.toList_ofList]
    exact Text.not_mem_of_splitAt s.toList name hpart

/-- The characters of a name occur in the text that was read. -/
theorem mem_of_mem_namesOf {n : String} (hn : n ∈ namesOf cs) {c : Char} (hc : c ∈ n.toList) :
    c ∈ cs := by
  obtain ⟨part, hpart, rfl⟩ := List.mem_map.mp hn
  rw [String.toList_ofList] at hc
  exact (Text.mem_of_mem_splitAt cs part (List.mem_filter.mp hpart).1 c hc).2

/-! ## Reading what is written -/

/-- A slash in front has no part in the names. -/
theorem namesOf_slash (cs : List Char) : namesOf ('/' :: cs) = namesOf cs := rfl

/-- Names with slashes between them. -/
theorem namesOf_intercalate (h : ∀ n ∈ ns, IsName n) :
    namesOf (['/'].intercalate (ns.map String.toList)) = ns := by
  by_cases hne : ns = []
  · rw [hne]
    rfl
  · have hparts : ∀ l ∈ ns.map String.toList, '/' ∉ l := by
      intro l hl
      obtain ⟨n, hn, rfl⟩ := List.mem_map.mp hl
      exact (h n hn).noSlash
    have hkept : ∀ l ∈ ns.map String.toList, (!isTrivial l) = true := by
      intro l hl
      obtain ⟨n, hn, rfl⟩ := List.mem_map.mp hl
      have hnot := not_isTrivial_iff.mpr
        ⟨fun hnil => (h n hn).notEmpty (String.toList_inj.mp hnil),
          fun hdot => (h n hn).notDot (String.toList_inj.mp hdot)⟩
      rw [hnot]
      rfl
    rw [namesOf, Text.splitAt_intercalate hparts (by simpa using hne),
      List.filter_eq_self.mpr hkept, List.map_map]
    simp [Function.comp_def]

/-- No slash stands in front of names. -/
theorem head?_intercalate (h : ∀ n ∈ ns, IsName n) :
    (['/'].intercalate (ns.map String.toList)).head? ≠ some '/' := by
  cases ns with
  | nil => nofun
  | cons n ns =>
      have hn := h n List.mem_cons_self
      cases hchars : n.toList with
      | nil => exact absurd (String.toList_inj.mp hchars) hn.notEmpty
      | cons c cs =>
          have hc : c ≠ '/' := by
            rintro rfl
            exact hn.noSlash (by rw [hchars]; exact List.mem_cons_self)
          cases ns with
          | nil => simpa [hchars] using hc
          | cons m ns => simpa [hchars] using hc

theorem rootOf_relative (h : cs.head? ≠ some '/') : rootOf cs = .relative := by
  unfold rootOf
  split
  · exact absurd rfl h
  · exact absurd rfl h
  · exact absurd rfl h
  · rfl

theorem rootOf_top (h : cs.head? ≠ some '/') : rootOf ('/' :: cs) = .top := by
  unfold rootOf
  split
  · rfl
  · next heq =>
      cases heq
      exact absurd rfl h
  · rfl
  · next hnone => exact absurd rfl (hnone cs)

theorem rootOf_doubled (h : cs.head? ≠ some '/') : rootOf ('/' :: '/' :: cs) = .doubled := by
  unfold rootOf
  split
  · next heq =>
      cases heq
      exact absurd rfl h
  · rfl
  · next hnone heq => exact absurd (List.cons.inj heq).2.symm (hnone cs)
  · next hnone => exact absurd rfl (hnone _)

theorem ofChars_eq {root : Root} (hroot : rootOf cs = root) (hnames : namesOf cs = ns) :
    ofChars cs = ⟨root, ns⟩ := by
  rw [ofChars, hroot, hnames]

/-- What a path with a root is written as. -/
theorem toList_toString (p : Path) (h : ¬(p.root = .relative ∧ p.names = [])) :
    p.toString.toList
      = (rootText p.root).toList ++ ['/'].intercalate (p.names.map String.toList) := by
  rw [toString, if_neg h, String.toList_append, String.toList_intercalate]
  rfl

/-- **A path is read again** from what it is written as. -/
theorem ofString_toString (h : p.IsWritten) : ofString p.toString = p := by
  have hnames := isName_of_isWritten h
  by_cases hdot : p.root = .relative ∧ p.names = []
  · obtain ⟨root, names⟩ := p
    obtain ⟨rfl, rfl⟩ := hdot
    rfl
  · have hhead := head?_intercalate hnames
    have hread := namesOf_intercalate hnames
    have htop : (rootText .top).toList = ['/'] := rfl
    have hdoubled : (rootText .doubled).toList = ['/', '/'] := rfl
    rw [ofString, toList_toString p hdot]
    obtain ⟨root, names⟩ := p
    dsimp only
    cases root with
    | relative => exact ofChars_eq (rootOf_relative hhead) hread
    | top =>
        rw [htop]
        exact ofChars_eq (rootOf_top hhead) ((namesOf_slash _).trans hread)
    | doubled =>
        rw [hdoubled]
        exact ofChars_eq (rootOf_doubled hhead)
          ((namesOf_slash _).trans ((namesOf_slash _).trans hread))

/-- The characters of a name occur in what the path is written as. -/
theorem mem_toString (h : p.IsWritten) {n : String} (hn : n ∈ p.names) {c : Char}
    (hc : c ∈ n.toList) : c ∈ p.toString.toList := by
  have hread : (ofString p.toString).names = p.names := congrArg names (ofString_toString h)
  rw [← hread] at hn
  exact mem_of_mem_namesOf hn hc

end Perception.Path
