import Perception.Audio.Decode
import Perception.Proofs.Files.Reading

set_option autoImplicit false

/-! # What is behind a source

A source of audio is an address or a path. What it leads to depends on the files and the web alone,
so reading one source makes no difference to the next (`Audio.Backend.run_fromUrl`,
`Audio.Backend.reading_of_asked`). A source that leads to no clip is a failure to read, with few
exceptions (`Audio.Backend.reading_notIO_iff`): addresses that are malformed, that name files which
cannot be named or that mislead those who ask for them (`Audio.Stray`), and bytes at which a backend
breaks (`Audio.Backend.Breaks`).
-/

namespace Perception

namespace Mishap

variable {m : Mishap} {url : String}

theorem eq_other_of_ofReading (hio : (m.ofReading url).kind.isIO = false) :
    m = .other (m.ofReading url) := by
  cases m with
  | request text => cases hio
  | other f => rfl

theorem eq_other_of_bare (hio : m.bare.kind.isIO = false) : m = .other m.bare := by
  cases m with
  | request text => cases hio
  | other f => rfl

end Mishap

namespace Host

variable {h h' : Host} {url : String} {u : Uri} {p : Path}

/-! ## Files and addresses -/

def fileContent (h : Host) (p : Path) : Outcome Content :=
  if p.hasNul then .error (.plain .value)
  else (h.tree.read h.here p).mapError fun cause => .system cause p.toString

def contentBehind (h : Host) (url : String) (u : Uri) : Outcome Content :=
  if u.isFile then h.fileContent (Path.ofChars (Uri.decodePath u.path))
  else match h.web url with
    | .failure m => .error (m.ofReading url)
    | .reply r =>
        match r.statusError? url with
        | some text => .error (.unreadableUrl url text)
        | none =>
            match r.breaksAfter with
            | some (_, m) => .error m.bare
            | none => .ok (.bytes r.body)

/-- A machine and the same one after requests: files and web are as they were. -/
def Asked (h h' : Host) : Prop :=
  ∃ requests closed, h' = { h with requests := requests, closed := closed }

theorem Asked.refl (h : Host) : Asked h h := ⟨h.requests, h.closed, rfl⟩

theorem Asked.trans {h'' : Host} (h₁ : Asked h h') (h₂ : Asked h' h'') : Asked h h'' := by
  obtain ⟨_, _, rfl⟩ := h₁
  obtain ⟨requests, closed, rfl⟩ := h₂
  exact ⟨requests, closed, rfl⟩

theorem run_read (h : Host) (p : Path) : (read p).run h = (h.fileContent p, h) := by
  unfold read checkPath fileContent
  cases p.hasNul with
  | true => rfl
  | false =>
      show (ofSystem p (h.tree.read h.here p)).run h = _
      cases h.tree.read h.here p <;> rfl

theorem run_parseUri (h : Host) (hu : Uri.parse? url.toList = some u) :
    (parseUri url).run h = (.ok u, h) := by
  rw [parseUri, hu]
  rfl

/-- The address of a file is read as the file. -/
theorem run_fetch_file (h : Host) (timeout : Datum) (hu : Uri.parse? url.toList = some u)
    (hfile : u.isFile = true) :
    (fetch url timeout).run h = (h.fileContent (Path.ofChars (Uri.decodePath u.path)), h) := by
  rw [fetch, Outcome.run_bind_ok (run_parseUri h hu), if_pos hfile]
  exact run_read h _

/-- **Fetching an address** gives the content behind it and changes no files. -/
theorem run_fetch (h : Host) (timeout : Datum) (hu : Uri.parse? url.toList = some u) :
    ∃ h', Asked h h' ∧ (fetch url timeout).run h = (h.contentBehind url u, h') := by
  by_cases hfile : u.isFile = true
  · rw [contentBehind, if_pos hfile]
    exact ⟨h, .refl h, run_fetch_file h timeout hu hfile⟩
  · unfold fetch contentBehind
    rw [Outcome.run_bind_ok (run_parseUri h hu), if_neg hfile, if_neg hfile]
    obtain ⟨h', hasked, hask⟩ : ∃ h', Asked h h' ∧
        (ask url false timeout).run h = (.ok (h.web url), h') :=
      ⟨((ask url false timeout).run h).2, ⟨_, _, rfl⟩, run_ask h url false timeout⟩
    rw [Outcome.run_bind_ok hask]
    refine ⟨h', hasked, ?_⟩
    cases h.web url with
    | failure m => rfl
    | reply r =>
        dsimp only
        cases r.statusError? url with
        | some text => rfl
        | none =>
            dsimp only
            cases r.breaksAfter with
            | some b => rfl
            | none => rfl

theorem fileContent_notIO {e : Failure} (he : h.fileContent p = .error e)
    (hio : e.kind.isIO = false) : p.hasNul = true := by
  unfold fileContent at he
  cases hnul : p.hasNul with
  | true => rfl
  | false =>
      rw [hnul, if_neg Bool.false_ne_true] at he
      cases hread : h.tree.read h.here p with
      | ok c =>
          rw [hread] at he
          cases he
      | error cause =>
          rw [hread] at he
          cases he
          exact absurd (hio.symm.trans cause.isIO_kind) Bool.false_ne_true

/-- Does asking for an address, or reading the reply, go wrong as no request that fails does? -/
def Misled (h : Host) (url : String) (f : Failure) : Prop :=
  h.web url = .failure (.other f) ∨
    ∃ r n, h.web url = .reply r ∧ r.statusError? url = none ∧ r.breaksAfter = some (n, .other f)

/-- **What is no failure to read** is an address of a file that cannot be named, or one that misleads
those who ask for it. -/
theorem contentBehind_notIO {e : Failure} (he : h.contentBehind url u = .error e)
    (hio : e.kind.isIO = false) :
    (u.isFile = true ∧ (Path.ofChars (Uri.decodePath u.path)).hasNul = true) ∨
      u.isFile = false ∧ h.Misled url e := by
  unfold contentBehind at he
  cases hfile : u.isFile with
  | true =>
      rw [if_pos hfile] at he
      exact Or.inl ⟨rfl, fileContent_notIO he hio⟩
  | false =>
      rw [if_neg (Bool.eq_false_iff.mp hfile)] at he
      refine Or.inr ⟨rfl, ?_⟩
      -- the reply may fail as a whole, or while its body comes
      cases hweb : h.web url with
      | failure m =>
          rw [hweb] at he
          cases he
          exact Or.inl (hweb.trans (congrArg Answer.failure (Mishap.eq_other_of_ofReading hio)))
      | reply r =>
          rw [hweb] at he
          dsimp only at he
          cases hstatus : r.statusError? url with
          | some text =>
              rw [hstatus] at he
              cases he
              cases hio
          | none =>
              rw [hstatus] at he
              dsimp only at he
              cases hbreaks : r.breaksAfter with
              | none =>
                  rw [hbreaks] at he
                  cases he
              | some b =>
                  rw [hbreaks] at he
                  cases he
                  exact Or.inr ⟨r, b.1, hweb, hstatus,
                    hbreaks.trans (congrArg (fun m => some (b.1, m)) (Mishap.eq_other_of_bare hio))⟩

/-- An address that misleads fails so. -/
theorem contentBehind_of_misled {f : Failure} (hfile : u.isFile = false) (hm : h.Misled url f) :
    h.contentBehind url u = .error f := by
  unfold contentBehind
  rw [if_neg (Bool.eq_false_iff.mp hfile)]
  rcases hm with hweb | ⟨r, n, hweb, hstatus, hbreaks⟩
  · rw [hweb]
    rfl
  · rw [hweb]
    simp only [hstatus, hbreaks]
    rfl

end Host

namespace Audio

open Host

variable {h h' : Host} {source : String} {e : Failure}

/-! ## Sources -/

/-- The bytes of a file and its path, or why it cannot be read. -/
def fileMaterial (h : Host) (p : Path) : Outcome (Option Path × Bytes) :=
  if p.hasNul then .error (.audioMissing p.toString)
  else match h.tree.isFile h.here p with
    | .ok true => (h.fileContent p).map fun c => (some p, bytesOf c)
    | .ok false => .error (.audioMissing p.toString)
    | .error cause => .error (.system cause p.toString)

/-- The bytes behind a source and the file they are from, if any, or why it cannot be read. -/
def material (h : Host) (source : String) : Outcome (Option Path × Bytes) :=
  match Uri.parse? source.toList with
  | none => .error (.plain .value)
  | some u =>
      if u.isAbsolute then (h.contentBehind source u).map fun c => (none, bytesOf c)
      else fileMaterial h (Path.ofString source)

/-- A source fails otherwise than by a failure to read: it is an address that is refused, or one of
a file that cannot be named, or one that misleads those who ask for it. -/
inductive Stray (h : Host) (source : String) : Failure → Prop
  | malformed (hu : Uri.parse? source.toList = none) : Stray h source (.plain .value)
  | unnameable {u : Uri} (hu : Uri.parse? source.toList = some u) (habsolute : u.isAbsolute = true)
      (hfile : u.isFile = true) (hnul : (Path.ofChars (Uri.decodePath u.path)).hasNul = true) :
      Stray h source (.plain .value)
  | misled {u : Uri} {f : Failure} (hu : Uri.parse? source.toList = some u)
      (habsolute : u.isAbsolute = true) (hfile : u.isFile = false) (hmisled : h.Misled source f)
      (hio : f.kind.isIO = false) : Stray h source f

theorem Stray.notIO (hs : Stray h source e) : e.kind.isIO = false := by
  cases hs with
  | malformed hu => rfl
  | unnameable hu habsolute hfile hnul => rfl
  | misled hu habsolute hfile hmisled hio => exact hio

theorem Stray.material (hs : Stray h source e) : material h source = .error e := by
  unfold Audio.material
  cases hs with
  | malformed hu => rw [hu]
  | unnameable hu habsolute hfile hnul =>
      rw [hu]
      dsimp only
      rw [if_pos habsolute, contentBehind, if_pos hfile, fileContent, if_pos hnul]
      rfl
  | misled hu habsolute hfile hmisled hio =>
      rw [hu]
      dsimp only
      rw [if_pos habsolute, contentBehind_of_misled hfile hmisled]
      rfl

/-- A file that has no bytes is a failure to read, also one that cannot be named. -/
theorem fileMaterial_isIO {p : Path} (he : fileMaterial h p = .error e) :
    e.kind.isIO = true := by
  unfold fileMaterial at he
  by_cases hnul : p.hasNul = true
  · rw [if_pos hnul] at he
    cases he
    rfl
  · rw [if_neg hnul] at he
    split at he
    · cases hio : e.kind.isIO with
      | true => rfl
      | false => exact absurd (fileContent_notIO (Outcome.eq_error_of_map he) hio) hnul
    · cases he
      rfl
    · next cause _ =>
        cases he
        exact cause.isIO_kind

/-- **Other sources** are at worst a failure to read. -/
theorem stray_of_notIO (he : material h source = .error e) (hio : e.kind.isIO = false) :
    Stray h source e := by
  unfold material at he
  cases hu : Uri.parse? source.toList with
  | none =>
      rw [hu] at he
      cases he
      exact .malformed hu
  | some u =>
      rw [hu] at he
      dsimp only at he
      by_cases habsolute : u.isAbsolute = true
      · rw [if_pos habsolute] at he
        have hc := Outcome.eq_error_of_map he
        rcases contentBehind_notIO hc hio with ⟨hfile, hnul⟩ | ⟨hfile, hmisled⟩
        · rw [contentBehind, if_pos hfile, fileContent, if_pos hnul] at hc
          cases hc
          exact .unnameable hu habsolute hfile hnul
        · exact .misled hu habsolute hfile hmisled hio
      · rw [if_neg habsolute] at he
        exact absurd (hio.symm.trans (fileMaterial_isIO he)) Bool.false_ne_true

namespace Backend

variable {k : Toolkit} {b : Backend} {origin : Option Path} {bs : Bytes}

/-! ## Decoding -/

/-- A backend fails at bytes otherwise than by a failure to read: the one that keeps rates where its
library fails otherwise than by refusing the bytes, the one that resamples where bytes that were
decoded cannot be converted. -/
inductive Breaks (k : Toolkit) (origin : Option Path) (bs : Bytes) : Backend → Failure → Prop
  | plain {f : Failure} (he : k.plain origin bs = .error (.other f)) (hio : f.kind.isIO = false) :
      Breaks k origin bs .plain f
  | resampling {target : Datum} {w : Wave} {f : Failure} (hw : k.resampling origin bs = .ok w)
      (he : converted k target w = .error f) (hio : f.kind.isIO = false) :
      Breaks k origin bs (.resampling target) f
  | other {name : String} {f : Failure} (he : k.foreign name origin bs = .error f)
      (hio : f.kind.isIO = false) : Breaks k origin bs (.other name) f

/-- **What a backend cannot decode** is a failure to read unless the backend breaks. -/
theorem breaks_iff : Breaks k origin bs b e ↔
    b.decode k origin bs = .error e ∧ e.kind.isIO = false := by
  constructor
  · intro hb
    cases hb with
    | plain he hio => exact ⟨by rw [decode, he], hio⟩
    | resampling hw he hio => exact ⟨by rw [decode, hw]; exact he, hio⟩
    | other he hio => exact ⟨he, hio⟩
  · -- what the library refuses, or a backend reports, is a failure to read
    rintro ⟨he, hio⟩
    cases b with
    | plain =>
        rw [decode] at he
        split at he
        · cases he
        · cases he
          cases hio
        · next hk =>
            cases he
            exact .plain hk hio
    | resampling target =>
        rw [decode] at he
        split at he
        · next hk => exact .resampling hk he hio
        · cases he
          cases hio
    | other name => exact .other he hio

/-! ## Reading a source -/

/-- The clip behind a source, or why there is none. -/
def reading (b : Backend) (h : Host) (source : String) : Outcome Clip :=
  material h source >>= fun m => b.decode h.sound m.1 m.2

/-- What a source leads to is not changed by requests. -/
theorem reading_of_asked (hasked : Asked h h') (b : Backend) (source : String) :
    b.reading h' source = b.reading h source := by
  obtain ⟨requests, closed, rfl⟩ := hasked
  rfl

theorem run_lift {α : Type} (o : Outcome α) (h : Host) : (lift o).run h = (o, h) := by
  cases o <;> rfl

theorem run_decoded (b : Backend) (origin : Option Path) (bs : Bytes) (h : Host) :
    (b.decoded origin bs).run h = (b.decode h.sound origin bs, h) :=
  run_lift _ h

/-- Reading a file changes nothing. -/
theorem run_fromFile (b : Backend) (h : Host) (p : Path) :
    (b.fromFile p).run h = (fileMaterial h p >>= fun m => b.decode h.sound m.1 m.2, h) := by
  unfold fromFile fileMaterial
  by_cases hnul : p.hasNul = true
  · rw [if_pos hnul, Outcome.run_bind_ok (run_isFile_nul h hnul)]
    rfl
  · have hfile := run_isFile h p (Bool.eq_false_iff.mpr hnul)
    rw [if_neg hnul]
    cases hlook : h.tree.isFile h.here p with
    | error cause =>
        rw [hlook] at hfile
        exact Outcome.run_bind_error hfile
    | ok found =>
        rw [hlook] at hfile
        rw [Outcome.run_bind_ok hfile]
        cases found with
        | false => rfl
        | true =>
            have hread := run_read h p
            cases hc : h.fileContent p with
            | error e =>
                rw [hc] at hread
                exact Outcome.run_bind_error hread
            | ok c =>
                rw [hc] at hread
                exact (Outcome.run_bind_ok hread).trans (run_decoded b _ _ h)

/-- **Reading a source** gives what is behind it, and makes requests at most. -/
theorem run_fromUrl (b : Backend) (h : Host) (source : String) :
    ∃ h', Asked h h' ∧ (b.fromUrl source).run h = (b.reading h source, h') := by
  unfold fromUrl reading material
  have habsolute := run_lift (isAbsoluteUri source) h
  unfold isAbsoluteUri at habsolute ⊢
  cases hu : Uri.parse? source.toList with
  | none =>
      rw [hu] at habsolute
      exact ⟨h, .refl h, Outcome.run_bind_error habsolute⟩
  | some u =>
      rw [hu] at habsolute
      dsimp only at habsolute ⊢
      rw [Outcome.run_bind_ok habsolute]
      by_cases hscheme : u.isAbsolute = true
      · rw [if_pos hscheme, if_pos hscheme]
        obtain ⟨h', hasked, hfetch⟩ := run_fetch h patience hu
        refine ⟨h', hasked, ?_⟩
        cases hc : h.contentBehind source u with
        | error e =>
            rw [hc] at hfetch
            exact Outcome.run_bind_error hfetch
        | ok c =>
            rw [hc] at hfetch
            rw [Outcome.run_bind_ok hfetch]
            obtain ⟨requests, closed, rfl⟩ := hasked
            exact run_decoded b none _ _
      · rw [if_neg hscheme, if_neg hscheme]
        exact ⟨h, .refl h, run_fromFile b h _⟩

/-- **Which readings fail otherwise than by a failure to read**: those of sources that do so before
there are any bytes, and those of bytes at which the backend breaks. -/
theorem reading_notIO_iff :
    b.reading h source = .error e ∧ e.kind.isIO = false ↔
      Stray h source e ∨
        ∃ origin bs, material h source = .ok (origin, bs) ∧ Breaks h.sound origin bs b e := by
  constructor
  · rintro ⟨he, hio⟩
    cases hm : material h source with
    | error e' =>
        rw [reading, hm] at he
        cases he
        exact Or.inl (stray_of_notIO hm hio)
    | ok m =>
        rw [reading, hm] at he
        exact Or.inr ⟨m.1, m.2, rfl, breaks_iff.mpr ⟨he, hio⟩⟩
  · rintro (hstray | ⟨origin, bs, hm, hbreaks⟩)
    · exact ⟨by rw [reading, hstray.material]; rfl, hstray.notIO⟩
    · obtain ⟨he, hio⟩ := breaks_iff.mp hbreaks
      exact ⟨by rw [reading, hm]; exact he, hio⟩

end Backend

end Audio

end Perception
