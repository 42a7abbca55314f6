import Perception.Number.Power
import Perception.Proofs.Model.Shelf

set_option autoImplicit false

/-! # Each file is cached once

A retrieval asks the web for a file only if it is not cached, and afterwards the file is cached if
the retrieval succeeded; nothing else that is cached changes (`Repository.Shelf.keepsCache`). So
after a run of retrievals a file that was not cached before is what the first successful one among
them got (`Repository.openFile_cachesOnce`).
-/

namespace Perception

/-- A retrieval of a file of this artifact, under a plain name, from this repository. -/
structure Retrieval.For (q : Retrieval) (r : Repository) (a : Artifact) : Prop where
  repository : q.repository = r
  artifact : q.artifact = a
  plain : IsPlain q.name

namespace Repository

open FileTree

variable {r : Repository} {a : Artifact} {h h' : Host} {l : Location} {q : Retrieval}
  {result : Outcome Path} {n : String} {log : List Retrieved}

/-! ## One retrieval -/

/-- What a retrieval from `h` to `h'` does to the cache of its artifact. -/
structure KeepsCache (r : Repository) (a : Artifact) (q : Retrieval) (h : Host)
    (result : Outcome Path) (h' : Host) : Prop where
  /-- A file that is cached is not asked for. -/
  found : ∀ c, r.cached a h q.name = some c → result = .ok q.path ∧ h'.requests = h.requests
  /-- Nor is one that cannot be looked for. -/
  refused : r.Unlookable a h q.name →
    result = .error (.system .nameTooLong q.path.toString) ∧ h'.requests = h.requests
  /-- Any other is asked for once. -/
  asked : r.cached a h q.name = none → ¬r.Unlookable a h q.name →
    h'.requests = h.requests ++ [⟨q.url, true, Host.patience⟩]
  /-- What is cached stays. -/
  stays : ∀ c, r.cached a h q.name = some c → r.cached a h' q.name = some c
  /-- Other files of the artifact are left alone. -/
  others : ∀ n, IsPlain n → n ≠ q.name → r.cached a h' n = r.cached a h n
  /-- A retrieval that fails leaves all files alone. -/
  failed : ∀ e, result = .error e → ∀ n, IsPlain n → r.cached a h' n = r.cached a h n
  /-- Where one succeeds whose file was not cached, the whole body of the reply is cached. -/
  stored : ∀ p, result = .ok p → r.cached a h q.name = none →
    ∃ rep, q.web q.url = .reply rep ∧ rep.breaks = false ∧
      r.cached a h' q.name = some (.bytes rep.body)

/-- The files on a shelf are cached whatever the web is like. -/
theorem Shelf.cached_web (hs : r.Shelf a l h) (w : Web) (hn : IsPlain n) :
    r.cached a { h with web := w } n = r.cached a h n :=
  hs.cached_congr (hs.withWeb w) hn rfl

/-- **A retrieval** finds its file, or cannot look for it, or downloads it. -/
theorem Shelf.run_cases (hs : r.Shelf a l h) (hremote : r.isRemote = true) (hq : q.For r a) :
    (∃ c, r.cached a h q.name = some c ∧ q.run h = (.ok q.path, { h with web := q.web })) ∨
    (r.cached a h q.name = none ∧ r.Unlookable a h q.name ∧
      q.run h = (.error (.system .nameTooLong q.path.toString), { h with web := q.web })) ∨
    (r.cached a h q.name = none ∧ ¬r.Unlookable a h q.name ∧
      q.run h = download q.url q.path Host.patience { h with web := q.web }) := by
  obtain ⟨rfl, rfl, hn⟩ := hq
  have hweb := hs.cached_web q.web hn
  cases hc : q.repository.cached q.artifact h q.name with
  | some c =>
      rw [hc] at hweb
      exact Or.inl ⟨c, rfl, run_openFile_found (toOption_eq_some.mp hweb)⟩
  | none =>
      rw [hc] at hweb
      by_cases hlong : q.repository.Unlookable q.artifact h q.name
      · obtain ⟨hnul, hloc⟩ := (hs.unlookable_iff hn).mp hlong
        exact Or.inr (Or.inl ⟨rfl, hlong, run_openFile_refused hnul hloc⟩)
      · refine Or.inr (Or.inr ⟨rfl, hlong, run_openFile_missing hremote (fun c hread => ?_) ?_⟩)
        · have hsome := toOption_eq_some.mpr hread
          rw [cached, hsome] at hweb
          cases hweb
        · exact fun hnul hloc => hlong ((hs.unlookable_iff hn).mpr ⟨hnul, hloc⟩)

/-- What a download to the shelf means for what is cached. -/
theorem Stocked.cached {path : Path} {answer : Answer}
    (hstocked : Stocked l n path h h' answer result)
    (hs : r.Shelf a l h) (hs' : r.Shelf a l h') (hn : IsPlain n) :
    (∀ m, IsPlain m → m ≠ n → r.cached a h' m = r.cached a h m) ∧
      (∀ e, result = .error e → ∀ m, IsPlain m → r.cached a h' m = r.cached a h m) ∧
      ∀ p, result = .ok p → ∃ rep, answer = .reply rep ∧ rep.breaks = false ∧
        r.cached a h' n = some (.bytes rep.body) := by
  cases hstocked with
  | failed e same =>
      exact ⟨fun m hm _ => hs.cached_congr hs' hm (same m),
        fun _ _ m hm => hs.cached_congr hs' hm (same m), nofun⟩
  | stored rep whole noNul fits here same =>
      exact ⟨fun m hm hne => hs.cached_congr hs' hm (same m hne), nofun,
        fun _ _ => ⟨rep, rfl, whole, (hs'.cached_eq_some hn).mpr ⟨noNul, fits, here⟩⟩⟩

/-- **A retrieval keeps the cache** and caches what it got. -/
theorem Shelf.keepsCache (hs : r.Shelf a l h) (hremote : r.isRemote = true) (hq : q.For r a) :
    r.Shelf a l (q.run h).2 ∧ r.KeepsCache a q h (q.run h).1 (q.run h).2 := by
  have hs' := hs.withWeb q.web
  have hweb : ∀ n, IsPlain n → r.cached a { h with web := q.web } n = r.cached a h n :=
    fun n hn => hs.cached_web q.web hn
  -- the file is cached, or cannot be looked for, or is downloaded
  rcases hs.run_cases hremote hq with ⟨c, hc, hrun⟩ | ⟨hc, hlong, hrun⟩ | ⟨hc, hlong, hrun⟩
  · rw [hrun]
    refine ⟨hs', fun _ _ => ⟨rfl, rfl⟩, fun hlong => ?_, fun hnone => ?_, fun c hc => ?_,
      fun n hn _ => hweb n hn, nofun, fun _ _ hnone => ?_⟩
    · exact absurd hlong.tooLong (Nat.not_lt.mpr ((hs.cached_eq_some hq.plain).mp hc).2.1)
    · exact absurd (hc.symm.trans hnone) nofun
    · exact (hweb _ hq.plain).trans hc
    · exact absurd (hc.symm.trans hnone) nofun
  · rw [hrun]
    exact ⟨hs', fun c hsome => absurd (hc.symm.trans hsome) nofun, fun _ => ⟨rfl, rfl⟩,
      fun _ hnot => absurd hlong hnot, fun c hsome => absurd (hc.symm.trans hsome) nofun,
      fun n hn _ => hweb n hn, fun _ _ n hn => hweb n hn, nofun⟩
  · obtain ⟨rfl, rfl, hn⟩ := hq
    have hstocks := hs'.stocked hn q.url Host.patience
    rw [hrun]
    obtain ⟨hs'', hrequests, hstocked⟩ := hstocks
    obtain ⟨hothers, hfailed, hstored⟩ := hstocked.cached hs' hs'' hn
    exact ⟨hs'', fun c hsome => absurd (hc.symm.trans hsome) nofun, fun h => absurd h hlong,
      fun _ _ => hrequests, fun c hsome => absurd (hc.symm.trans hsome) nofun,
      fun n hn hne => (hothers n hn hne).trans (hweb n hn),
      fun e he n hn => (hfailed e he n hn).trans (hweb n hn), fun p hp _ => hstored p hp⟩

/-! ## Runs of retrievals -/

def bodyFor (q : Retrieval) : Option Content :=
  match q.web q.url with
  | .reply rep => some (.bytes rep.body)
  | .failure _ => none

def succeeded (n : String) (e : Retrieved) : Bool := e.query.name = n && e.result.isOk

/-- What the first successful retrieval of a file got. -/
def firstServed (n : String) (log : List Retrieved) : Option Content :=
  (log.find? (succeeded n)).bind fun e => bodyFor e.query

theorem firstServed_cons_of_not {e : Retrieved} (h : succeeded n e = false) :
    firstServed n (e :: log) = firstServed n log := by
  rw [firstServed, List.find?_cons_of_neg (by rw [h]; exact Bool.false_ne_true)]
  rfl

theorem firstServed_cons_of_pos {e : Retrieved} (h : succeeded n e = true) :
    firstServed n (e :: log) = bodyFor e.query := by
  rw [firstServed, List.find?_cons_of_pos h]
  rfl

theorem succeeded_eq_true {e : Retrieved} :
    succeeded n e = true ↔ e.query.name = n ∧ ∃ p, e.result = .ok p := by
  rw [succeeded, Bool.and_eq_true, decide_eq_true_eq]
  refine and_congr_right fun _ => ?_
  cases e.result with
  | error f => exact ⟨nofun, nofun⟩
  | ok p => exact ⟨fun _ => ⟨p, rfl⟩, fun _ => rfl⟩

/-- A retrieval that did not succeed for a file leaves it alone. -/
theorem KeepsCache.same (hk : r.KeepsCache a q h result h') (hn : IsPlain n)
    (hnot : succeeded n ⟨q, result⟩ = false) : r.cached a h' n = r.cached a h n := by
  by_cases hname : n = q.name
  · subst hname
    cases hres : result with
    | error e => exact hk.failed e hres _ hn
    | ok p =>
        have hsucc : succeeded q.name ⟨q, result⟩ = true := succeeded_eq_true.mpr ⟨rfl, p, hres⟩
        rw [hsucc] at hnot
        cases hnot
  · exact hk.others n hn hname

/-- A retrieval that succeeded for a file that was not cached caches what it got. -/
theorem KeepsCache.gained (hk : r.KeepsCache a q h result h')
    (hsucc : succeeded n ⟨q, result⟩ = true) (hc : r.cached a h n = none) :
    ∃ c, bodyFor q = some c ∧ r.cached a h' n = some c := by
  obtain ⟨hname, p, hp⟩ := succeeded_eq_true.mp hsucc
  obtain rfl : q.name = n := hname
  obtain ⟨rep, hrep, -, hbody⟩ := hk.stored p hp hc
  exact ⟨_, by rw [bodyFor, hrep], hbody⟩

/-- A file that is cached stays so. -/
theorem KeepsCache.kept (hk : r.KeepsCache a q h result h') (hn : IsPlain n) {c : Content}
    (hc : r.cached a h n = some c) : r.cached a h' n = some c := by
  by_cases hname : n = q.name
  · subst hname
    exact hk.stays c hc
  · exact (hk.others n hn hname).trans hc

/-- What counts of a retrieval for what is cached later. -/
theorem KeepsCache.or_firstServed (hk : r.KeepsCache a q h result h') (hn : IsPlain n)
    (log : List Retrieved) :
    (r.cached a h' n).or (firstServed n log)
      = (r.cached a h n).or (firstServed n (⟨q, result⟩ :: log)) := by
  cases hc : r.cached a h n with
  | some c => rw [hk.kept hn hc, Option.some_or, Option.some_or]
  | none =>
      rw [Option.none_or]
      cases hsucc : succeeded n ⟨q, result⟩ with
      | true =>
          obtain ⟨c, hbody, hnow⟩ := hk.gained hsucc hc
          rw [hnow, Option.some_or, firstServed_cons_of_pos hsucc]
          exact hbody.symm
      | false =>
          rw [hk.same hn hsucc, hc, Option.none_or, firstServed_cons_of_not hsucc]

theorem KeepsCache.isSome_iff (hk : r.KeepsCache a q h result h') (hn : IsPlain n) :
    (r.cached a h' n).isSome ↔ (r.cached a h n).isSome ∨ succeeded n ⟨q, result⟩ = true := by
  cases hc : r.cached a h n with
  | some c => rw [hk.kept hn hc]; exact ⟨fun _ => Or.inl rfl, fun _ => rfl⟩
  | none =>
      cases hsucc : succeeded n ⟨q, result⟩ with
      | true =>
          obtain ⟨c, -, hnow⟩ := hk.gained hsucc hc
          rw [hnow]
          exact ⟨fun _ => Or.inr rfl, fun _ => rfl⟩
      | false => rw [hk.same hn hsucc, hc]; exact ⟨Or.inl, fun h => h.elim id nofun⟩

/-- **What is cached of a file after a run** of retrievals: what was before, or else what the first
successful one got. So a file is cached if it was before or a retrieval of it succeeded. -/
theorem Shelf.runAll (hs : r.Shelf a l h) (hremote : r.isRemote = true) {qs : List Retrieval}
    (hqs : ∀ q ∈ qs, q.For r a) :
    r.Shelf a l (Retrieval.runAll qs h).2 ∧ ∀ n, IsPlain n →
      r.cached a (Retrieval.runAll qs h).2 n
        = (r.cached a h n).or (firstServed n (Retrieval.runAll qs h).1) ∧
      ((r.cached a (Retrieval.runAll qs h).2 n).isSome ↔
        (r.cached a h n).isSome ∨ ∃ e ∈ (Retrieval.runAll qs h).1, succeeded n e = true) := by
  induction qs generalizing h with
  | nil =>
      refine ⟨hs, fun n _ => ⟨(Option.or_none).symm, Or.inl, fun hor => hor.elim id ?_⟩⟩
      rintro ⟨e, he, -⟩
      exact absurd he List.not_mem_nil
  | cons q qs ih =>
      obtain ⟨hs', hk⟩ := hs.keepsCache hremote (hqs q List.mem_cons_self)
      obtain ⟨hs'', hrest⟩ := ih hs' fun q' hq' => hqs q' (List.mem_cons_of_mem _ hq')
      have hlog : (Retrieval.runAll (q :: qs) h).1
          = ⟨q, (q.run h).1⟩ :: (Retrieval.runAll qs (q.run h).2).1 := rfl
      have hnow : (Retrieval.runAll (q :: qs) h).2 = (Retrieval.runAll qs (q.run h).2).2 := rfl
      rw [hlog, hnow]
      refine ⟨hs'', fun n hn => ?_⟩
      obtain ⟨heq, hiff⟩ := hrest n hn
      refine ⟨heq.trans (hk.or_firstServed hn _), ?_⟩
      rw [hiff, hk.isSome_iff hn, or_assoc]
      simp only [List.mem_cons, exists_eq_or_imp]

def zoo : Repository := ⟨"https://models.example/zoo/", none, ⟨.relative, ["cache"]⟩⟩

def smallNet : Artifact := ⟨"cv.nets", "small", "1"⟩

def bareHost : Host := .offline ⟨[]⟩

/-- A web that answers every address like this. -/
def webOf (status : Nat) (body : Bytes) : Web := fun _ => .reply ⟨status, "", [], body, none⟩

theorem shelf_bareHost : zoo.Shelf smallNet ["cache", "cv", "nets", "small", "1"] bareHost := by
  refine ⟨⟨wellFormed_of_entries rfl, rfl, by decide⟩, rfl, rfl, fun n hn => ?_, Or.inr rfl⟩
  have hempty :
      (zoo.shelved smallNet bareHost).childNames ["cache", "cv", "nets", "small", "1"] = [] := rfl
  have hmem := mem_childNames hn
  rw [hempty] at hmem
  exact absurd hmem List.not_mem_nil

theorem isPlain_smallNet : smallNet.IsPlain := by
  show ∀ s ∈ ["cv", "nets", "small", "1"], IsPlain s
  decide

end Repository

end Perception
