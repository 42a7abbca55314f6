import Perception.Proofs.Model.Retrieval

set_option autoImplicit false

/-! # The cache of an artifact

The files of an artifact are kept in one directory, its shelf (`Repository.Shelf`). What is cached
of a file is what stands on the shelf under its name (`Repository.Shelf.cached_eq_some`), and a
download either leaves what is on the shelf alone or puts the whole body of the reply there
(`Repository.Shelf.stocked`).
-/

namespace Perception

namespace FileTree

variable {t u : FileTree} {l at_ : Location} {ns : List String}

/-- Names that can be walked along somewhere are not too long. -/
theorem walk_ne_tooLong (h : walk u at_ ns = .ok l) : walk t at_ ns ≠ .error .nameTooLong := by
  induction ns generalizing at_ with
  | nil => exact nofun
  | cons n ns ih =>
      obtain ⟨-, hn, hrest⟩ := walk_cons_ok h
      intro hlong
      cases hdir : t.get? at_ with
      | none =>
          rw [walk, hdir] at hlong
          cases hlong
      | some e =>
          cases e with
          | file c =>
              rw [walk, hdir] at hlong
              cases hlong
          | directory =>
              rw [walk_cons hdir hn] at hlong
              exact ih hrest hlong

end FileTree

namespace Repository

open FileTree

variable {r : Repository} {a : Artifact} {n : String} {h : Host} {l k : Location}

/-! ## Shelves -/

/-- The tree once the directory of an artifact has been made. -/
def shelved (r : Repository) (a : Artifact) (h : Host) : FileTree :=
  ((Host.makeDirectories (r.resolve a)).run h).2.tree

/-- The directory of an artifact is at this place, or can be made there, and holds files only. -/
structure Shelf (r : Repository) (a : Artifact) (l : Location) (h : Host) : Prop where
  wellFormed : h.WellFormed
  makes : ((Host.makeDirectories (r.resolve a)).run h).1 = .ok ()
  leads : (r.shelved a h).locate h.here (r.resolve a) = .ok l
  flat : ∀ n, (r.shelved a h).get? (l ++ [n]) ≠ some .directory
  /-- The directory is there, or nothing is in its place. -/
  reach : h.tree.locate h.here (r.resolve a) = .ok l ∨ h.tree.get? l = none

theorem grown_shelved (r : Repository) (a : Artifact) (h : Host) :
    Grown h.tree (r.shelved a h) (Above (r.shelved a h) h.here (r.resolve a)) :=
  Host.grown_run_makeDirectories h (r.resolve a)

namespace Shelf

theorem noNul (hs : r.Shelf a l h) : (r.resolve a).hasNul = false :=
  (Host.leads_run_makeDirectories hs.makes).1

theorem directory (hs : r.Shelf a l h) : (r.shelved a h).get? l = some .directory := by
  obtain ⟨k, hk, hdir⟩ := (Host.leads_run_makeDirectories hs.makes).2
  have hsame : l = k := Except.ok.inj (hs.leads.symm.trans hk)
  rw [hsame]
  exact hdir

/-- What is on the shelf is there before it is made. -/
theorem get?_shelved (hs : r.Shelf a l h) (n : String) :
    (r.shelved a h).get? (l ++ [n]) = h.tree.get? (l ++ [n]) := by
  cases hn : (r.shelved a h).get? (l ++ [n]) with
  | none =>
      cases ht : h.tree.get? (l ++ [n]) with
      | none => rfl
      | some e =>
          rw [(grown_shelved r a h).kept _ _ ht] at hn
          cases hn
  | some e =>
      rcases (grown_shelved r a h).added _ _ hn with ht | ⟨rfl, -⟩
      · exact ht.symm
      · exact absurd hn (hs.flat n)

theorem locate_shelved (hs : r.Shelf a l h) (hn : IsPlain n)
    (hk : (r.shelved a h).locate h.here (r.fileOf a n) = .ok k) :
    k = l ++ [n] ∧ n.utf8ByteSize ≤ maxNameBytes := by
  have hwalk : (r.shelved a h).locate h.here (r.fileOf a n) = walk (r.shelved a h) l [n] := by
    have hleads := hs.leads
    rw [locate_eq] at hleads
    rw [fileOf_plain hn, locate_eq, walk_append]
    show (walk _ (start h.here (r.resolve a)) (r.resolve a).names >>= _) = _
    rw [hleads]
    rfl
  rw [hwalk] at hk
  obtain ⟨-, hlen, hrest⟩ := walk_cons_ok hk
  rw [towards, if_neg hn.notDots] at hrest
  exact ⟨(Except.ok.inj hrest).symm, hlen⟩

/-- The path of a file leads to its name on the shelf. -/
theorem locate_file (hs : r.Shelf a l h) (hn : IsPlain n)
    (hk : h.tree.locate h.here (r.fileOf a n) = .ok k) :
    k = l ++ [n] ∧ n.utf8ByteSize ≤ maxNameBytes :=
  hs.locate_shelved hn ((grown_shelved r a h).locate hk)

/-- Where there is something on the shelf, the shelf is there. -/
theorem locate_of_get? (hs : r.Shelf a l h) (hn : IsPlain n) (hlen : n.utf8ByteSize ≤ maxNameBytes)
    {e : Entry} (he : h.tree.get? (l ++ [n]) = some e) :
    h.tree.locate h.here (r.fileOf a n) = .ok (l ++ [n]) := by
  have hdir : h.tree.get? l = some .directory :=
    hs.wellFormed.tree.directory_of_append (List.cons_ne_nil n []) he
  rcases hs.reach with hloc | hfree
  · have hname : (r.fileOf a n).name = n := name_fileOf hn
    have hne : (r.fileOf a n).names ≠ [] := by
      rw [fileOf_plain hn]
      exact List.append_ne_nil_of_right_ne_nil _ (List.cons_ne_nil _ _)
    rw [← parent_fileOf hn] at hloc
    have := locate_name hne (by rw [hname]; exact hn.notDots) (by rw [hname]; exact hlen) hloc hdir
    rwa [hname] at this
  · rw [hfree] at hdir
    cases hdir

end Shelf

/-! ## What is cached -/

/-- What is cached of a file: the content that its path leads to. -/
def cached (r : Repository) (a : Artifact) (h : Host) (n : String) : Option Content :=
  ((Host.read (r.fileOf a n)).run h).1.toOption

def nameHasNul (n : String) : Bool := n.toList.any fun c => c.toNat = 0

/-- The shelf is there, but no file on it can be looked for whose name is so long. -/
structure Unlookable (r : Repository) (a : Artifact) (h : Host) (n : String) : Prop where
  shelf : h.tree.LeadsToDirectory h.here (r.resolve a)
  tooLong : maxNameBytes < n.utf8ByteSize
  noNul : nameHasNul n = false

theorem toOption_eq_some {ε α : Type} {x : Except ε α} {b : α} :
    x.toOption = some b ↔ x = .ok b := by
  cases x with
  | error e => exact ⟨nofun, nofun⟩
  | ok b' =>
      constructor
      · intro h
        cases h
        rfl
      · intro h
        cases h
        rfl

namespace Shelf

theorem hasNul_fileOf (hs : r.Shelf a l h) (hn : IsPlain n) :
    (r.fileOf a n).hasNul = nameHasNul n := by
  have hresolve := hs.noNul
  unfold Path.hasNul at hresolve
  rw [fileOf_plain hn, Path.hasNul, List.any_append, hresolve, List.any_cons, List.any_nil,
    Bool.or_false, Bool.false_or, nameHasNul]

/-- **What is cached** is the file on the shelf. -/
theorem cached_eq_some (hs : r.Shelf a l h) (hn : IsPlain n) {c : Content} :
    r.cached a h n = some c ↔
      nameHasNul n = false ∧ n.utf8ByteSize ≤ maxNameBytes ∧
        h.tree.get? (l ++ [n]) = some (.file c) := by
  rw [cached, toOption_eq_some, Host.run_read_eq_ok, hs.hasNul_fileOf hn, read_eq_ok]
  constructor
  · rintro ⟨hnul, k, hk, hc⟩
    obtain ⟨rfl, hlen⟩ := hs.locate_file hn hk
    exact ⟨hnul, hlen, hc⟩
  · rintro ⟨hnul, hlen, hc⟩
    exact ⟨hnul, l ++ [n], hs.locate_of_get? hn hlen hc, hc⟩

/-- What is cached is the same where the shelf holds the same under a name. -/
theorem cached_congr {h' : Host} (hs : r.Shelf a l h) (hs' : r.Shelf a l h') (hn : IsPlain n)
    (hget : h'.tree.get? (l ++ [n]) = h.tree.get? (l ++ [n])) :
    r.cached a h' n = r.cached a h n := by
  refine Option.ext fun c => ?_
  rw [hs.cached_eq_some hn, hs'.cached_eq_some hn, hget]

/-- **No file can be looked for** whose name is too long, once the shelf is there. -/
theorem unlookable_iff (hs : r.Shelf a l h) (hn : IsPlain n) :
    r.Unlookable a h n ↔ (r.fileOf a n).hasNul = false ∧
      h.tree.locate h.here (r.fileOf a n) = .error .nameTooLong := by
  have hlocate : h.tree.locate h.here (r.fileOf a n)
      = (h.tree.locate h.here (r.resolve a) >>= fun k => walk h.tree k [n]) := by
    rw [fileOf_plain hn, locate_eq, walk_append]
    rfl
  rw [hs.hasNul_fileOf hn, hlocate]
  constructor
  · rintro ⟨⟨k, hk, hdir⟩, hlong, hnul⟩
    refine ⟨hnul, ?_⟩
    rw [hk]
    show walk h.tree k [n] = _
    rw [walk, hdir]
    exact if_pos hlong
  · rintro ⟨hnul, herror⟩
    cases hk : h.tree.locate h.here (r.resolve a) with
    | error e =>
        rw [hk] at herror
        obtain rfl : e = .nameTooLong := Except.error.inj herror
        exact absurd hk (walk_ne_tooLong hs.leads)
    | ok k =>
        rw [hk] at herror
        have hwalk : walk h.tree k [n] = .error .nameTooLong := herror
        rw [walk] at hwalk
        cases hdir : h.tree.get? k with
        | none =>
            rw [hdir] at hwalk
            cases hwalk
        | some e =>
            rw [hdir] at hwalk
            cases e with
            | file c => cases hwalk
            | directory =>
                dsimp only at hwalk
                refine ⟨⟨k, hk, hdir⟩, ?_, hnul⟩
                -- a short name would have led to a place
                by_contra hshort
                rw [if_neg hshort, if_neg hn.notDots] at hwalk
                cases hwalk

/-! ## What a download does to the shelf -/

theorem withWeb (hs : r.Shelf a l h) (w : Web) : r.Shelf a l { h with web := w } := by
  have hrun := Host.run_makeDirectories_web h (r.resolve a) w
  have hshelved : r.shelved a { h with web := w } = r.shelved a h := by
    rw [shelved, hrun]
    rfl
  refine ⟨⟨hs.wellFormed.tree, hs.wellFormed.here, hs.wellFormed.noDots⟩, ?_, ?_, ?_, hs.reach⟩
  · rw [hrun]
    exact hs.makes
  · rw [hshelved]
    exact hs.leads
  · rw [hshelved]
    exact hs.flat

/-- Once it has been made the shelf stays where it is. -/
theorem after {h' : Host} (hs : r.Shelf a l h) (hwf : h'.WellFormed) (hhere : h'.here = h.here)
    (hup : ∀ k, (r.shelved a h).get? k = some .directory → h'.tree.get? k = some .directory)
    (hflat : ∀ n, h'.tree.get? (l ++ [n]) ≠ some .directory) : r.Shelf a l h' := by
  have hloc : h'.tree.locate h'.here (r.resolve a) = .ok l := by
    rw [hhere]
    exact locate_mono hup hs.leads
  have hrun := Host.run_makeDirectories_of_leads hs.noNul ⟨l, hloc, hup l hs.directory⟩
  have hshelved : r.shelved a h' = h'.tree := by rw [shelved, hrun]
  refine ⟨hwf, ?_, ?_, ?_, Or.inl hloc⟩
  · rw [hrun]
  · rw [hshelved]
    exact hloc
  · rw [hshelved]
    exact hflat

theorem not_blocked (hs : r.Shelf a l h) (hn : IsPlain n) :
    ¬Download.BlockedByDirectory h (r.fileOf a n) := by
  rw [Download.BlockedByDirectory, parent_fileOf hn]
  rintro ⟨k, hk, hdir⟩
  obtain ⟨rfl, -⟩ := hs.locate_shelved hn hk
  exact hs.flat n hdir

end Shelf

/-- What becomes of the shelf when a file is downloaded: it stays as it is, or holds the whole body
besides. -/
inductive Stocked (l : Location) (n : String) (path : Path) (h h' : Host) :
    Answer → Outcome Path → Prop
  | failed {answer : Answer} (e : Failure)
      (same : ∀ m, h'.tree.get? (l ++ [m]) = h.tree.get? (l ++ [m])) :
      Stocked l n path h h' answer (.error e)
  | stored (rep : Reply) (whole : rep.breaks = false) (noNul : nameHasNul n = false)
      (fits : n.utf8ByteSize ≤ maxNameBytes)
      (here : h'.tree.get? (l ++ [n]) = some (.file (.bytes rep.body)))
      (same : ∀ m, m ≠ n → h'.tree.get? (l ++ [m]) = h.tree.get? (l ++ [m])) :
      Stocked l n path h h' (.reply rep) (.ok path)

theorem hasNul_of_verdict {job : Download.Job} {bar : ProgressBar}
    {opened : Except SystemCause Unit} {rep : Reply} {p : Path}
    (h : Download.verdict job bar opened (.reply rep) = .ok p) : job.output.hasNul = false := by
  cases hrefusal : Download.refusal? job bar rep with
  | some f =>
      rw [Download.verdict_refused hrefusal] at h
      cases h
  | none => exact Download.Accepted.hasNul_eq_false hrefusal

/-- **A download to the shelf** asks once, and stocks the shelf or leaves it alone. -/
theorem Shelf.stocked (hs : r.Shelf a l h) (hn : IsPlain n) (url : String) (timeout : Datum) :
    r.Shelf a l (download url (r.fileOf a n) timeout h).2 ∧
      (download url (r.fileOf a n) timeout h).2.requests
        = h.requests ++ [⟨url, true, timeout⟩] ∧
      Stocked l n (r.fileOf a n) h (download url (r.fileOf a n) timeout h).2
        (h.web url) (download url (r.fileOf a n) timeout h).1 := by
  have hmakes : ((Host.makeDirectories (r.fileOf a n).parent).run h).1 = .ok () := by
    rw [parent_fileOf hn]
    exact hs.makes
  let job : Download.Job := ⟨url, r.fileOf a n, timeout⟩
  have hout : ¬Download.BlockedByDirectory h job.output := hs.not_blocked hn
  obtain ⟨s, hsettled⟩ : ∃ s : Download.Site job h, _ :=
    Download.settled_of_makes hs.wellFormed url timeout hout hmakes
  have hwf := (Download.allOrNothing_of_settled hs.wellFormed hout s hsettled).wellFormed
  generalize download url (r.fileOf a n) timeout h = out at hsettled hwf ⊢
  -- the site of the download is the shelf
  have hmade : s.made = r.shelved a h := by
    have hrun : (Host.makeDirectories (r.fileOf a n).parent).run h = _ := s.makes
    rw [parent_fileOf hn] at hrun
    rw [shelved, hrun]
  have hparent : s.parent = l := by
    have hloc : s.made.locate h.here (r.fileOf a n).parent = .ok s.parent := s.located
    rw [parent_fileOf hn, hmade] at hloc
    exact Except.ok.inj (hloc.symm.trans hs.leads)
  have htarget : s.target = l ++ [n] := by
    have hname : job.output.name = n := name_fileOf hn
    rw [Download.Site.target, hparent, hname]
  have hbefore (m : String) : s.made.get? (l ++ [m]) = h.tree.get? (l ++ [m]) := by
    rw [hmade]
    exact hs.get?_shelved m
  have hdirs : ∀ m, s.made.get? (l ++ [m]) ≠ some .directory := by
    rw [hmade]
    exact hs.flat
  rcases hsettled.tree with ⟨e, hresult, htree⟩ | ⟨rep, hresult, hweb, hwhole, hfits, htree⟩
  · refine ⟨hs.after hwf hsettled.asked.here (fun k hk => ?_) (fun m => ?_),
      hsettled.asked.requests, ?_⟩
    · rw [htree, hmade]
      exact hk
    · rw [htree]
      exact hdirs m
    · rw [hresult]
      exact .failed e fun m => (htree _).trans (hbefore m)
  · have hself : out.2.tree.get? (l ++ [n]) = some (.file (.bytes rep.body)) := by
      rw [htree, htarget, if_pos rfl]
    have hother (m : String) (hm : m ≠ n) :
        out.2.tree.get? (l ++ [m]) = s.made.get? (l ++ [m]) := by
      have hne : l ++ [m] ≠ s.target := by
        rw [htarget]
        exact fun heq => hm (List.cons.inj (List.append_cancel_left heq)).1
      rw [htree, if_neg hne]
    obtain ⟨opened, -, hverdict⟩ := hsettled.verdict
    refine ⟨hs.after hwf hsettled.asked.here (fun k hk => ?_) (fun m => ?_),
      hsettled.asked.requests, ?_⟩
    · have hne : k ≠ s.target := by
        rintro rfl
        rw [htarget] at hk
        exact hs.flat n hk
      rw [htree, if_neg hne, hmade]
      exact hk
    · by_cases hm : m = n
      · rw [hm, hself]
        intro heq
        cases heq
      · rw [hother m hm]
        exact hdirs m
    · have hnul : nameHasNul n = false := by
        rw [hresult, hweb] at hverdict
        rw [← hs.hasNul_fileOf hn]
        exact hasNul_of_verdict hverdict.symm
      have hlen : n.utf8ByteSize ≤ maxNameBytes := by
        have hname : job.output.name = n := name_fileOf hn
        rwa [hname] at hfits
      have hanswer : h.web url = .reply rep := hweb
      rw [hresult, hanswer]
      exact .stored rep hwhole hnul hlen hself fun m hm => (hother m hm).trans (hbefore m)

end Repository

end Perception
