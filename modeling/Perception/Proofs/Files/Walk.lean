import Perception.Proofs.Files.Tree

set_option autoImplicit false

/-! # Where paths lead

A walk that succeeds in one tree leads to the same place in every tree that has the directories of
the first (`FileTree.walk_mono`), so making directories never sends a path elsewhere. A path whose
last name is not two dots leads to that name in the place its parent leads to
(`FileTree.locate_name`).
-/

namespace Perception

/-- The path of the first `n` names of another. -/
def Path.upTo (p : Path) (n : Nat) : Path := { p with names := p.names.take n }

theorem Path.upTo_length (p : Path) : p.upTo p.names.length = p := by
  rw [Path.upTo, List.take_length]

namespace FileTree

variable {t u : FileTree} {at_ l : Location} {n : String} {ns ms : List String} {here : Location}

/-! ## Walks -/

def towards (at_ : Location) (n : String) : Location := if n = ".." then at_.dropLast else at_ ++ [n]

theorem walk_cons (hdir : t.get? at_ = some .directory) (hn : n.utf8ByteSize ≤ maxNameBytes) :
    walk t at_ (n :: ns) = walk t (towards at_ n) ns := by
  have hlong : ¬n.utf8ByteSize > maxNameBytes := Nat.not_lt.mpr hn
  rw [walk, hdir]
  dsimp only
  rw [if_neg hlong]
  unfold towards
  split <;> rfl

/-- What a successful walk found at its start. -/
theorem walk_cons_ok (h : walk t at_ (n :: ns) = .ok l) :
    t.get? at_ = some .directory ∧ n.utf8ByteSize ≤ maxNameBytes ∧
      walk t (towards at_ n) ns = .ok l := by
  have hdir : t.get? at_ = some .directory := by
    rw [walk] at h
    split at h
    · cases h
    · cases h
    · assumption
  have hn : n.utf8ByteSize ≤ maxNameBytes := by
    rw [walk, hdir] at h
    dsimp only at h
    by_contra hlong
    rw [if_pos (Nat.not_le.mp hlong)] at h
    cases h
  rw [walk_cons hdir hn] at h
  exact ⟨hdir, hn, h⟩

theorem walk_append : walk t at_ (ns ++ ms) = (walk t at_ ns >>= fun l => walk t l ms) := by
  induction ns generalizing at_ with
  | nil => rfl
  | cons n ns ih =>
      cases hdir : t.get? at_ with
      | none =>
          rw [List.cons_append, walk, walk, hdir]
          rfl
      | some e =>
          cases e with
          | file c =>
              rw [List.cons_append, walk, walk, hdir]
              rfl
          | directory =>
              by_cases hn : n.utf8ByteSize ≤ maxNameBytes
              · rw [List.cons_append, walk_cons hdir hn, walk_cons hdir hn, ih]
              · -- both walks end at the same name
                have hlong : n.utf8ByteSize > maxNameBytes := Nat.not_le.mp hn
                rw [List.cons_append, walk, walk, hdir]
                dsimp only
                rw [if_pos hlong, if_pos hlong]
                rfl

/-- **Walks go the same way where there are more directories.** -/
theorem walk_mono (hu : ∀ l, t.get? l = some .directory → u.get? l = some .directory)
    (h : walk t at_ ns = .ok l) : walk u at_ ns = .ok l := by
  induction ns generalizing at_ with
  | nil => exact h
  | cons n ns ih =>
      obtain ⟨hdir, hn, hrest⟩ := walk_cons_ok h
      rw [walk_cons (hu _ hdir) hn]
      exact ih hrest

theorem noDots_of_walk (hat : ".." ∉ at_) (h : walk t at_ ns = .ok l) : ".." ∉ l := by
  induction ns generalizing at_ with
  | nil =>
      cases h
      exact hat
  | cons n ns ih =>
      obtain ⟨-, -, hrest⟩ := walk_cons_ok h
      refine ih ?_ hrest
      unfold towards
      split
      · exact fun hmem => hat (List.dropLast_subset _ hmem)
      · intro hmem
        rcases List.mem_append.mp hmem with hmem | hmem
        · exact hat hmem
        · rw [List.mem_singleton] at hmem
          exact absurd hmem.symm ‹_›

/-- Without two dots a walk only goes down. -/
theorem eq_append_of_walk (hns : ".." ∉ ns) (h : walk t at_ ns = .ok l) : l = at_ ++ ns := by
  induction ns generalizing at_ with
  | nil =>
      cases h
      exact (List.append_nil _).symm
  | cons n ns ih =>
      obtain ⟨-, -, hrest⟩ := walk_cons_ok h
      obtain ⟨hn, hns⟩ := not_or.mp (mt List.mem_cons.mpr hns)
      rw [ih hns hrest, towards, if_neg (Ne.symm hn), List.append_assoc, List.singleton_append]

/-- A walk down to an entry of a well-formed tree succeeds if it does so in another tree. -/
theorem walk_of_wellFormed {e : Entry} (hwf : t.WellFormed) (hns : ".." ∉ ns)
    (he : t.get? (at_ ++ ns) = some e) (h : walk u at_ ns = .ok l) :
    walk t at_ ns = .ok (at_ ++ ns) := by
  induction ns generalizing at_ with
  | nil => rw [walk, List.append_nil]
  | cons n ns ih =>
      obtain ⟨-, hlen, hrest⟩ := walk_cons_ok h
      obtain ⟨hn, hns⟩ := not_or.mp (mt List.mem_cons.mpr hns)
      have hdir : t.get? at_ = some .directory :=
        hwf.directory_of_append (List.cons_ne_nil _ _) he
      have htowards : towards at_ n = at_ ++ [n] := if_neg (Ne.symm hn)
      have hsplit : at_ ++ n :: ns = at_ ++ [n] ++ ns := by
        rw [List.append_assoc, List.singleton_append]
      rw [htowards] at hrest
      rw [hsplit] at he
      rw [walk_cons hdir hlen, htowards, hsplit]
      exact ih hns he hrest

/-- Down directories a walk fails for the length of a name only. -/
theorem nameTooLong_of_walk {e : SystemCause} (hns : ".." ∉ ns)
    (hdirs : ∀ p s, ns = p ++ s → s ≠ [] → t.get? (at_ ++ p) = some .directory)
    (h : walk t at_ ns = .error e) : e = .nameTooLong := by
  induction ns generalizing at_ with
  | nil => cases h
  | cons n ns ih =>
      have hdir : t.get? at_ = some .directory := by
        have := hdirs [] (n :: ns) rfl (List.cons_ne_nil _ _)
        rwa [List.append_nil] at this
      obtain ⟨hn, hns⟩ := not_or.mp (mt List.mem_cons.mpr hns)
      by_cases hlen : n.utf8ByteSize ≤ maxNameBytes
      · rw [walk_cons hdir hlen, towards, if_neg (Ne.symm hn)] at h
        refine ih hns (fun p s hps hs => ?_) h
        have := hdirs (n :: p) s (by rw [hps, List.cons_append]) hs
        rwa [List.append_assoc, List.singleton_append]
      · rw [walk, hdir] at h
        dsimp only at h
        rw [if_pos (Nat.not_le.mp hlen)] at h
        cases h
        rfl

/-! ## Paths -/

def start (here : Location) (p : Path) : Location := if p.isAbsolute then [] else here

theorem locate_eq (t : FileTree) (here : Location) (p : Path) :
    t.locate here p = walk t (start here p) p.names := rfl

theorem locate_mono {p : Path} (hu : ∀ l, t.get? l = some .directory → u.get? l = some .directory)
    (h : t.locate here p = .ok l) : u.locate here p = .ok l :=
  walk_mono hu h

theorem names_of_ne_nil {p : Path} (h : p.names ≠ []) : p.names = p.parent.names ++ [p.name] := by
  have hlast : p.name = p.names.getLast h := by
    rw [Path.name, List.getLast?_eq_some_getLast h]
    rfl
  rw [hlast]
  exact (List.dropLast_concat_getLast h).symm

/-- **A path leads to its last name in the place of its parent.** -/
theorem locate_name {p : Path} {parent : Location} (hne : p.names ≠ []) (hname : p.name ≠ "..")
    (hlen : p.name.utf8ByteSize ≤ maxNameBytes) (hparent : t.locate here p.parent = .ok parent)
    (hdir : t.get? parent = some .directory) : t.locate here p = .ok (parent ++ [p.name]) := by
  have hstart : start here p.parent = start here p := rfl
  rw [locate_eq, hstart] at hparent
  rw [locate_eq, names_of_ne_nil hne, walk_append, hparent]
  show walk t parent [p.name] = .ok (parent ++ [p.name])
  rw [walk_cons hdir hlen, towards, if_neg hname]
  rfl

/-- Where a path with names leads somewhere, its parent leads to a directory and its last name
fits. -/
theorem parent_of_locate {p : Path} (hne : p.names ≠ []) (h : t.locate here p = .ok l) :
    ∃ k, t.locate here p.parent = .ok k ∧ t.get? k = some .directory ∧
      p.name.utf8ByteSize ≤ maxNameBytes := by
  rw [locate_eq, names_of_ne_nil hne, walk_append] at h
  cases hk : walk t (start here p) p.parent.names with
  | error e =>
      rw [hk] at h
      cases h
  | ok k =>
      rw [hk] at h
      obtain ⟨hdir, hfits, -⟩ := walk_cons_ok h
      exact ⟨k, hk, hdir, hfits⟩

/-! ## Writing -/

/-- At a free place in a directory a file can be written. -/
theorem write_free {p : Path} (c : Content) (hl : t.locate here p = .ok l) (hfree : t.get? l = none)
    (hup : t.get? l.dropLast = some .directory) :
    t.write here p c = .ok (t.put l (.file c)) := by
  rw [write, hl]
  dsimp only
  rw [hfree]
  dsimp only
  rw [hup]

end FileTree

end Perception
