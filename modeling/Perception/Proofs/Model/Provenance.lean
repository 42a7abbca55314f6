import Perception.Proofs.Model.Cache

set_option autoImplicit false

/-! # Where cached files come from

Every file on the machine was there at the start, or is the whole body of a reply to a retrieval
whose path leads to it (`Retrieval.Provenance`). So what a retrieval finds was served from its own
address if all retrievals whose paths lead to the same place had that address
(`Retrieval.served_own`). Where two repositories share a cache it may come from the other one
(`Retrieval.served_other`).
-/

namespace Perception

open FileTree

namespace Retrieval

variable {h₀ h : Host} {q : Retrieval} {log : List Retrieved} {e : Retrieved} {c : Content}
  {result : Outcome Path} {k : Location}

/-- The web had this content for a retrieval, as a whole. -/
def Serves (q : Retrieval) (c : Content) : Prop :=
  ∃ rep, q.web q.url = .reply rep ∧ rep.breaks = false ∧ c = .bytes rep.body

/-- What a host has been made of by the retrievals of a log. -/
structure Provenance (h₀ : Host) (log : List Retrieved) (h : Host) : Prop where
  wellFormed : h.WellFormed
  here : h.here = h₀.here
  /-- Every file was there, or was served to a retrieval whose path leads to it. -/
  files : ∀ k c, h.tree.get? k = some (.file c) → h₀.tree.get? k = some (.file c) ∨
    ∃ e ∈ log, e.query.Serves c ∧ h.tree.locate h.here e.query.path = .ok k

theorem provenance_nil (hwf : h₀.WellFormed) : Provenance h₀ [] h₀ :=
  ⟨hwf, rfl, fun _ _ hk => Or.inl hk⟩

/-! ## Downloads -/

/-- What a download changes: directories stay, and a file that is new is the whole body in the place
of the output. -/
structure Delivers (q : Retrieval) (h : Host) (result : Outcome Path) (h' : Host) : Prop where
  wellFormed : h'.WellFormed
  here : h'.here = h.here
  directories : ∀ k, h.tree.get? k = some .directory → h'.tree.get? k = some .directory
  files : ∀ k c, h'.tree.get? k = some (.file c) → h.tree.get? k = some (.file c) ∨
    (q.Serves c ∧ h'.tree.locate h'.here q.path = .ok k)
  found : ∀ p, result = .ok p → p = q.path ∧ ∃ k c, h'.tree.locate h'.here q.path = .ok k ∧
    h'.tree.get? k = some (.file c)

def job (q : Retrieval) (timeout : Datum) : Download.Job := ⟨q.url, q.path, timeout⟩

/-- A download that settles what it comes to delivers the body, or nothing. -/
theorem delivers_of_settled (hwf : h.WellFormed) (hweb : h.web = q.web) {timeout : Datum}
    (hout : ¬Download.BlockedByDirectory h (q.job timeout).output)
    {s : Download.Site (q.job timeout) h} {h' : Host} (hs : Download.Settled s h' h'.tree result) :
    Delivers q h result h' := by
  have hwf' := (Download.allOrNothing_of_settled hwf hout s hs).wellFormed
  -- what was made on the way to the output are directories
  have hold : ∀ k c, s.made.get? k = some (.file c) → h.tree.get? k = some (.file c) :=
    fun k c hk => (s.grown.added k _ hk).resolve_right fun hdir => nomatch hdir.1
  rcases hs.tree with ⟨e, hresult, htree⟩ | ⟨rep, hresult, hanswer, hwhole, hfits, htree⟩
  · refine ⟨hwf', hs.asked.here, fun k hk => ?_, fun k c hk => Or.inl ?_, fun p hp => ?_⟩
    · rw [htree]
      exact s.grown.kept k _ hk
    · rw [htree] at hk
      exact hold k c hk
    · rw [hresult] at hp
      cases hp
  · -- the place of the output is none of a directory
    have hup : ∀ k, s.made.get? k = some .directory → h'.tree.get? k = some .directory := by
      intro k hk
      have hne : k ≠ s.target := by
        rintro rfl
        exact s.target_not_directory hout hfits hk
      rw [htree, if_neg hne]
      exact hk
    have hloc : h'.tree.locate h'.here q.path = .ok s.target := by
      rw [hs.asked.here]
      exact s.locate_output hout hfits hup
    have hbody : h'.tree.get? s.target = some (.file (.bytes rep.body)) := by
      rw [htree, if_pos rfl]
    have hserves : q.Serves (.bytes rep.body) := by
      refine ⟨rep, ?_, hwhole, rfl⟩
      rw [← hweb]
      exact hanswer
    refine ⟨hwf', hs.asked.here, fun k hk => hup k (s.grown.kept k _ hk), fun k c hk => ?_,
      fun p hp => ?_⟩
    · -- the one file that may be new is the output, which holds the body
      by_cases hkt : k = s.target
      · rw [hkt, hbody] at hk
        cases hk
        exact Or.inr ⟨hserves, by rw [hkt]; exact hloc⟩
      · rw [htree, if_neg hkt] at hk
        exact Or.inl (hold k c hk)
    · rw [hresult] at hp
      cases hp
      exact ⟨rfl, s.target, _, hloc, hbody⟩

/-- One whose directories cannot be made has made some of them at most. -/
theorem delivers_of_refused (hwf : h.WellFormed) {timeout : Datum}
    (hout : ¬Download.BlockedByDirectory h (q.job timeout).output) {e : Failure} {h' : Host}
    (hrun : (Host.makeDirectories (q.job timeout).output.parent).run h = (.error e, h')) :
    Delivers q h (.error e) h' := by
  have hgrown := Host.grown_run_makeDirectories h (q.job timeout).output.parent
  have hsame := Host.frame_run_makeDirectories h (q.job timeout).output.parent
  have hkept := Download.allOrNothing_of_refused hwf hout hrun
  rw [hrun] at hgrown hsame
  refine ⟨hkept.wellFormed, hsame.2.2, fun k => hgrown.kept k _, fun k c hk => Or.inl ?_, nofun⟩
  exact (hgrown.added k _ hk).resolve_right fun h => nomatch h.1

/-- **What a download changes**, if no directory is in the way of its output. -/
theorem delivers_download (hwf : h.WellFormed) (hweb : h.web = q.web) (timeout : Datum)
    (hout : ¬Download.BlockedByDirectory h q.path) :
    Delivers q h (download q.url q.path timeout h).1 (download q.url q.path timeout h).2 := by
  have hjob : ¬Download.BlockedByDirectory h (q.job timeout).output := hout
  have hends := Download.download_ends hwf q.url timeout hout
  generalize download q.url q.path timeout h = out at hends ⊢
  rcases hends with ⟨s, hs⟩ | ⟨e, he, hrun⟩
  · exact delivers_of_settled hwf hweb hjob hs
  · rw [he]
    exact delivers_of_refused hwf hjob hrun

/-! ## Retrievals -/

/-- Looking for a file, found or not, delivers nothing new. -/
theorem delivers_refl (hwf : h.WellFormed) (w : Web) (hfound : ∀ p, result = .ok p → p = q.path ∧
      ∃ k c, h.tree.locate h.here q.path = .ok k ∧ h.tree.get? k = some (.file c)) :
    Delivers q h result { h with web := w } :=
  ⟨⟨hwf.tree, hwf.here, hwf.noDots⟩, rfl, fun _ hk => hk, fun _ _ hk => Or.inl hk, hfound⟩

/-- **What a retrieval changes**, if no directory is in the way of its file. -/
theorem delivers_run (hwf : h.WellFormed) (hremote : q.repository.isRemote = true)
    (hout : ¬Download.BlockedByDirectory { h with web := q.web } q.path) :
    Delivers q h (q.run h).1 (q.run h).2 := by
  have hwf' : Host.WellFormed { h with web := q.web } := ⟨hwf.tree, hwf.here, hwf.noDots⟩
  by_cases hread : ∃ c, ((Host.read q.path).run { h with web := q.web }).1 = .ok c
  · obtain ⟨c, hc⟩ := hread
    have hrun : q.run h = (.ok q.path, { h with web := q.web }) :=
      Repository.run_openFile_found hc
    obtain ⟨-, hfile⟩ := Host.run_read_eq_ok.mp hc
    obtain ⟨k, hk⟩ := read_eq_ok.mp hfile
    rw [hrun]
    refine delivers_refl hwf q.web fun p hp => ?_
    cases hp
    exact ⟨rfl, k, c, hk⟩
  · have hnone : ∀ c, ((Host.read q.path).run { h with web := q.web }).1 ≠ .ok c :=
      fun c hc => hread ⟨c, hc⟩
    by_cases hlong : q.path.hasNul = false ∧
        h.tree.locate h.here q.path = .error .nameTooLong
    · have hrun : q.run h
          = (.error (.system .nameTooLong q.path.toString), { h with web := q.web }) :=
        Repository.run_openFile_refused hlong.1 hlong.2
      rw [hrun]
      exact delivers_refl hwf q.web nofun
    · have hrun : q.run h = download q.url q.path Host.patience { h with web := q.web } :=
        Repository.run_openFile_missing hremote hnone fun hnul hloc => hlong ⟨hnul, hloc⟩
      have hd := delivers_download hwf' rfl Host.patience hout
      rw [hrun]
      exact ⟨hd.wellFormed, hd.here, hd.directories, hd.files, hd.found⟩

/-- **A retrieval keeps account** of where files come from. -/
theorem Provenance.next (hp : Provenance h₀ log h) {h' : Host} (hd : Delivers q h result h') :
    Provenance h₀ (log ++ [⟨q, result⟩]) h' := by
  refine ⟨hd.wellFormed, hd.here.trans hp.here, fun k c hk => ?_⟩
  rcases hd.files k c hk with hk | ⟨hserves, hloc⟩
  · rcases hp.files k c hk with hk | ⟨e, he, hserves, hloc⟩
    · exact Or.inl hk
    · -- directories stay, so the path leads where it led
      refine Or.inr ⟨e, List.mem_append_left _ he, hserves, ?_⟩
      rw [hd.here]
      exact locate_mono hd.directories hloc
  · exact Or.inr ⟨⟨q, result⟩, List.mem_append_right _ (List.mem_singleton_self _), hserves, hloc⟩

/-- No directory is in the way of a file when it is retrieved. -/
def Unblocked : List Retrieval → Host → Prop
  | [], _ => True
  | q :: qs, h => ¬Download.BlockedByDirectory { h with web := q.web } q.path ∧
      Unblocked qs (q.run h).2

/-- **A run of retrievals** keeps account of where files come from. -/
theorem Provenance.runAll {qs : List Retrieval} (hp : Provenance h₀ log h)
    (hremote : ∀ q ∈ qs, q.repository.isRemote = true) (hfree : Unblocked qs h) :
    Provenance h₀ (log ++ (Retrieval.runAll qs h).1) (Retrieval.runAll qs h).2 := by
  induction qs generalizing h log with
  | nil =>
      show Provenance h₀ (log ++ []) h
      rw [List.append_nil]
      exact hp
  | cons q qs ih =>
      have hd := delivers_run hp.wellFormed (hremote q List.mem_cons_self) hfree.1
      have hrest := ih (hp.next hd) (fun q' hq' => hremote q' (List.mem_cons_of_mem _ hq')) hfree.2
      rw [List.append_assoc] at hrest
      exact hrest

/-- **What a retrieval finds was served from its own address**, after any number of retrievals from
any repositories on the web, if no file was at its place at the start and the retrievals from other
addresses lead to other places. -/
theorem served_own (hwf : h.WellFormed) (qs : List Retrieval) (q : Retrieval)
    (hremote : ∀ q' ∈ qs, q'.repository.isRemote = true) (hremote' : q.repository.isRemote = true)
    (hfree : Unblocked qs h)
    (hfree' : ¬Download.BlockedByDirectory { (runAll qs h).2 with web := q.web } q.path) :
    let log := (runAll qs h).1
    let now := (runAll qs h).2
    let out := q.run now
    (∀ k c, h.tree.get? k = some (.file c) → out.2.tree.locate out.2.here q.path ≠ .ok k) →
    (∀ e ∈ log, ∀ k, out.2.tree.locate out.2.here e.query.path = .ok k →
      out.2.tree.locate out.2.here q.path = .ok k → e.query.url = q.url) →
    ∀ p, out.1 = .ok p → ∃ c, out.2.tree.read out.2.here p = .ok c ∧
      ∃ e ∈ log ++ [⟨q, out.1⟩], e.query.url = q.url ∧ e.query.Serves c := by
  intro log now out hnew hown p hp
  have hnow := (provenance_nil hwf).runAll hremote hfree
  rw [List.nil_append] at hnow
  have hd := delivers_run hnow.wellFormed hremote' hfree'
  obtain ⟨rfl, k, c, hk, hc⟩ := hd.found p hp
  refine ⟨c, read_eq_ok.mpr ⟨k, hk, hc⟩, ?_⟩
  rcases (hnow.next hd).files k c hc with hold | ⟨e, he, hserves, hloc⟩
  · exact absurd hk (hnew k c hold)
  · refine ⟨e, he, ?_, hserves⟩
    rcases List.mem_append.mp he with hlog | hlast
    · exact hown e hlog k hloc hk
    · rw [List.mem_singleton.mp hlast]

/-- A web in which one address has these bytes, and no other can be found. -/
def webAt (url : String) (body : Bytes) : Web := fun u =>
  if u = url then .reply ⟨200, "", [], body, none⟩ else .reply ⟨404, "", [], [], none⟩

/-- A file of an artifact, from the one repository that has it. -/
def ofZoo : Retrieval :=
  ⟨Repository.zoo, Repository.smallNet, "weights",
    webAt "https://models.example/zoo/cv/nets/small/1/weights" [1, 2]⟩

def ofOther (cache : String) : Retrieval :=
  { ofZoo with repository := ⟨"https://other.example", none, ⟨.relative, [cache]⟩⟩ }

def ofOtherOwn : Retrieval :=
  { ofOther "other" with web := webAt "https://other.example/cv/nets/small/1/weights" [3] }

theorem unblocked_ofZoo : Unblocked [ofZoo] Repository.bareHost := by
  refine ⟨?_, trivial⟩
  rintro ⟨l, hl, hdir⟩
  have hplace : .ok ["cache", "cv", "nets", "small", "1", "weights"]
      = (Except.ok l : Except SystemCause Location) := hl
  cases hplace
  cases hdir

/-- With another cache the other repository gets its own file. -/
theorem served_own_apart :
    ∃ c, (ofOtherOwn.run (runAll [ofZoo] Repository.bareHost).2).2.tree.read
        Repository.bareHost.here ofOtherOwn.path = .ok c ∧
      ∃ e ∈ (runAll [ofZoo] Repository.bareHost).1 ++
          [⟨ofOtherOwn, (ofOtherOwn.run (runAll [ofZoo] Repository.bareHost).2).1⟩],
        e.query.url = ofOtherOwn.url ∧ e.query.Serves c := by
  have hwf : Repository.bareHost.WellFormed := ⟨wellFormed_of_entries rfl, rfl, by decide⟩
  have hfree : ¬Download.BlockedByDirectory
      { (runAll [ofZoo] Repository.bareHost).2 with web := ofOtherOwn.web } ofOtherOwn.path := by
    rintro ⟨l, hl, hdir⟩
    have hplace : .ok ["other", "cv", "nets", "small", "1", "weights"]
        = (Except.ok l : Except SystemCause Location) := hl
    cases hplace
    cases hdir
  refine served_own hwf [ofZoo] ofOtherOwn ?_ rfl unblocked_ofZoo hfree ?_ ?_ ofOtherOwn.path rfl
  · intro q hq
    rw [List.mem_singleton.mp hq]
    rfl
  · intro k c hk
    by_cases hnil : k = []
    · rw [hnil] at hk
      cases hk
    · rw [get?_eq_find _ hnil] at hk
      cases hk
  · -- the two caches are different places
    intro e he k hk hk'
    rw [List.mem_singleton.mp he] at hk
    have hzoo : .ok ["cache", "cv", "nets", "small", "1", "weights"]
        = (Except.ok k : Except SystemCause Location) := hk
    have hother : .ok ["other", "cv", "nets", "small", "1", "weights"]
        = (Except.ok k : Except SystemCause Location) := hk'
    exact absurd (Except.ok.inj (hzoo.trans hother.symm)) (by decide)

/-- **Repositories that share a cache share their files**: what one of them has downloaded the other
one finds, though its own address has no such file, and is not even asked. -/
theorem served_other :
    ofZoo.repository.base ≠ (ofOther "cache").repository.base ∧
      (ofOther "cache").repository.isRemote = true ∧
      (runAll [ofZoo, ofOther "cache"] Repository.bareHost).1.map Retrieved.result
        = [.ok ofZoo.path, .ok (ofOther "cache").path] ∧
      (runAll [ofZoo, ofOther "cache"] Repository.bareHost).2.tree.read
          Repository.bareHost.here (ofOther "cache").path = .ok (.bytes [1, 2]) ∧
      (ofOther "cache").web (ofOther "cache").url = .reply ⟨404, "", [], [], none⟩ ∧
      (runAll [ofZoo, ofOther "cache"] Repository.bareHost).2.requests
        = [⟨ofZoo.url, true, Host.patience⟩] :=
  ⟨by decide, rfl, rfl, rfl, rfl, rfl⟩

end Retrieval

end Perception
