import Perception.Mask.Basic
import Perception.Proofs.Image.Grid
import Perception.Proofs.Json.RoundTrip
import Perception.Proofs.NdArray.Rows

set_option autoImplicit false

/-! # Masks that are written and read back

A mask is written as the JSON text of its grid. Main result: `ofJson_toJson`, reading the text or
its bytes with any list of names that is long enough gives the grid again, so that a text belongs to
one grid only.

Reading goes through four stages, each of which undoes what writing did: bytes to text
(`Json.textOf?_encode`), text to data (`Json.read?_compactChars`), data to an array
(`NdArray.ofNested_rows`), and the array to a mask (`ofNdArray_cells`).
-/

namespace Perception.Mask

/-! ## The written grid -/

def document (m : Mask) : Datum := Datum.object [("mask", m.toDatum)]

theorem toDatum_eq (m : Mask) : m.toDatum = NdArray.ofRows m.cells.rows := rfl

theorem mem_flatten_rows {m : Mask} {c : Nat} : c ∈ m.cells.rows.flatten ↔ c ∈ m.cells.cells := by
  rw [Grid.flatten_rows, Array.mem_toList_iff]

/-- Indices are short enough to be read. -/
theorem length_digitChars_le {c : Nat} (h : c < indexBound) :
    (Number.digitChars c).length ≤ Number.maxDigits := by
  have hten : (Number.digitChars c).length ≤ 10 :=
    (Nat.length_toDigits_le_iff (by decide) (by decide)).mpr (Nat.lt_trans h (by decide))
  exact Nat.le_trans hten (by decide)

theorem plain_ofRow {row : List Nat} (h : ∀ c ∈ row, c < indexBound) :
    Json.Plain (NdArray.ofRow row) := by
  rw [NdArray.ofRow, Json.Plain]
  induction row with
  | nil => trivial
  | cons c row ih =>
      refine ⟨?_, ih fun d hd => h d (by simp [hd])⟩
      show (Number.digitChars (c : Int).natAbs).length ≤ Number.maxDigits
      rw [Int.natAbs_natCast]
      exact length_digitChars_le (h c (by simp))

theorem plain_ofRows {rows : List (List Nat)} (h : ∀ row ∈ rows, ∀ c ∈ row, c < indexBound) :
    Json.Plain (NdArray.ofRows rows) := by
  rw [NdArray.ofRows, Json.Plain]
  induction rows with
  | nil => trivial
  | cons row rows ih =>
      exact ⟨plain_ofRow (h row (by simp)), ih fun r hr => h r (by simp [hr])⟩

theorem plain_document (m : Mask) : Json.Plain m.document := by
  have hrows : Json.Plain m.toDatum := by
    rw [toDatum_eq]
    refine plain_ofRows fun row hrow c hc => m.fits c ?_
    exact mem_flatten_rows.mp (List.mem_flatten.mpr ⟨row, hrow, hc⟩)
  exact ⟨⟨⟨"mask", rfl⟩, hrows, trivial⟩, rfl⟩

theorem depthOf_ofRow_le (row : List Nat) : Json.depthOf (NdArray.ofRow row) ≤ 1 := by
  rw [NdArray.ofRow, Json.depthOf]
  have hitems : Json.itemsDepth (row.map fun (n : Nat) => Datum.int n) = 0 := by
    induction row with
    | nil => rfl
    | cons c row ih =>
        rw [List.map_cons, Json.itemsDepth, ih]
        rfl
  omega

theorem depthOf_ofRows_le (rows : List (List Nat)) : Json.depthOf (NdArray.ofRows rows) ≤ 2 := by
  rw [NdArray.ofRows, Json.depthOf]
  have hitems : Json.itemsDepth (rows.map NdArray.ofRow) ≤ 1 := by
    induction rows with
    | nil => simp [Json.itemsDepth]
    | cons row rows ih =>
        have := depthOf_ofRow_le row
        rw [List.map_cons, Json.itemsDepth]
        omega
  omega

theorem depthOf_document_le (m : Mask) : Json.depthOf m.document ≤ Json.maxDepth := by
  have hrows : Json.depthOf m.toDatum ≤ 2 := by
    rw [toDatum_eq]
    exact depthOf_ofRows_le _
  show max (Json.depthOf m.toDatum) 0 + 1 ≤ Json.maxDepth
  have hmax : Json.maxDepth = 990 := rfl
  omega

/-! ## From the text to the document -/

theorem toList_toJson (m : Mask) : m.toJson.toList = Json.compactChars m.document ++ ['\n'] := by
  rw [toJson, Json.compact, String.toList_append, String.toList_ofList]
  rfl

theorem isSpace_lineEnd : ∀ c ∈ ['\n'], Json.isSpace c = true := by
  intro c hc
  rw [List.mem_singleton] at hc
  subst hc
  rfl

theorem read?_toJson (m : Mask) : Json.read? m.toJson.toList = .ok m.document := by
  rw [toList_toJson]
  exact Json.read?_compactChars m.plain_document m.depthOf_document_le isSpace_lineEnd

/-- The text starts with a brace and a quote. -/
theorem toJson_head (m : Mask) : ∃ cs, m.toJson.toList = '\x7b' :: '"' :: cs := by
  rw [toList_toJson]
  exact ⟨_, rfl⟩

theorem parse?_toJson (m : Mask) : Json.parse? m.toJson.toList = .ok m.document := by
  obtain ⟨cs, hcs⟩ := m.toJson_head
  have hread := m.read?_toJson
  rw [hcs] at hread ⊢
  rw [Json.parse?, if_neg (by simp), hread]

theorem textOf?_toBytes (m : Mask) : Json.textOf? m.toBytes = some m.toJson.toList := by
  obtain ⟨cs, hcs⟩ := m.toJson_head
  rw [toBytes, Bytes.ofString, hcs]
  exact Json.textOf?_encode (by decide) (by decide) (by decide) (by decide)

/-! ## From the document to the mask -/

theorem toNdArray_toDatum (m : Mask) :
    NdArray.ofNested m.toDatum = .ok ⟨.signed 64, [m.height, m.width],
      (m.cells.cells.toList.map fun (n : Nat) => Datum.int n).toArray⟩ := by
  have hne : m.cells.rows ≠ [] := by
    intro h
    have hlen := Grid.length_rows m.cells
    have := m.nonempty.2
    rw [h, List.length_nil] at hlen
    omega
  have hfit : ∀ n ∈ m.cells.rows.flatten, n < 0x8000000000000000 := by
    intro n hn
    exact Nat.lt_trans (m.fits n (mem_flatten_rows.mp hn)) (by decide)
  rw [toDatum_eq, NdArray.ofNested_rows hne m.nonempty.1
    (fun row hrow => Grid.length_of_mem_rows hrow) hfit, Grid.flatten_rows, Grid.length_rows]
  rfl

theorem firstOutside_of_forall {n place : Nat} {is : List Int} (h : ∀ i ∈ is, 0 ≤ i ∧ i < n) :
    firstOutside n place is = none := by
  induction is generalizing place with
  | nil => rfl
  | cons i is ih =>
      rw [firstOutside, if_pos (h i (by simp))]
      exact ih fun j hj => h j (by simp [hj])

/-- The array of a grid makes a mask of the grid, whatever whole numbers it holds them as. -/
theorem ofNdArray_cells {names : List String} {g : Grid Nat} {t : ElementType}
    (ht : t.isInteger = true) (hpos : 0 < g.width ∧ 0 < g.height)
    (hnames : ∀ c ∈ g.cells, c < names.length) (hfit : ∀ c ∈ g.cells, c < indexBound) :
    ofNdArray names ⟨t, [g.height, g.width],
      (g.cells.toList.map fun (n : Nat) => Datum.int n).toArray⟩
      = .ok ⟨names, g, hpos, hnames, hfit⟩ := by
  have hsize : g.height * g.width ≠ 0 := Nat.mul_ne_zero (by omega) (by omega)
  -- the checks see the numbers of the grid, and find none outside
  have hindices : (((g.cells.toList.map fun (n : Nat) => Datum.int n).toArray.toList).map
      fun d => d.int?.getD 0) = g.cells.toList.map fun (n : Nat) => (n : Int) := by
    rw [List.map_map]
    rfl
  have hinside : firstOutside names.length 0 (g.cells.toList.map fun (n : Nat) => (n : Int))
      = none := by
    apply firstOutside_of_forall
    intro i hi
    obtain ⟨c, hc, rfl⟩ := List.mem_map.mp hi
    have := hnames c (Array.mem_toList_iff.mp hc)
    omega
  have hback : ((g.cells.toList.map fun (n : Nat) => (n : Int)).map Int.toNat).toArray
      = g.cells := by
    have hid : (Int.toNat ∘ fun (n : Nat) => (n : Int)) = id := rfl
    rw [List.map_map, hid, List.map_id]
  have hgrid : Grid.ofArray? g.width g.height g.cells = some g := by
    rw [Grid.ofArray?, dif_pos g.size_eq]
  have hmask : ofGrid? names g = some ⟨names, g, hpos, hnames, hfit⟩ := by
    rw [ofGrid?, dif_pos ⟨hpos, hnames, hfit⟩]
  simp only [ofNdArray, hsize, ht, hindices, hinside, hback, hgrid, if_false, Bool.not_true,
    Bool.false_eq_true, Option.bind_some, hmask]

def withNames (m : Mask) (names : List String) (h : ∀ c ∈ m.cells.cells, c < names.length) :
    Mask :=
  ⟨names, m.cells, m.nonempty, h, m.fits⟩

theorem ofDocument_document (m : Mask) {names : List String}
    (h : ∀ c ∈ m.cells.cells, c < names.length) :
    ofDocument names m.document = .ok (m.withNames names h) := by
  have hfind : m.document.find? "mask" = some m.toDatum := by
    simp [document, Datum.object, Datum.find?, Datum.lookup]
  rw [ofDocument, hfind]
  show (NdArray.ofNested m.toDatum >>= ofNdArray names) = _
  rw [m.toNdArray_toDatum]
  exact ofNdArray_cells rfl m.nonempty h m.fits

theorem beq_self (m : Mask) : (m == m) = true := by
  show m.beq m = true
  simp [beq]

/-! ## Reading what was written -/

theorem ofJson_text (m : Mask) {names : List String}
    (h : ∀ c ∈ m.cells.cells, c < names.length) :
    ofJson names m.toJson = .ok (m.withNames names h) := by
  rw [ofJson, m.parse?_toJson]
  exact m.ofDocument_document h

theorem ofJsonBytes_bytes (m : Mask) {names : List String}
    (h : ∀ c ∈ m.cells.cells, c < names.length) :
    ofJsonBytes names m.toBytes = .ok (m.withNames names h) := by
  rw [ofJsonBytes, m.textOf?_toBytes]
  simp only [m.read?_toJson]
  exact m.ofDocument_document h

/-- **A mask comes back from its text and from its bytes**, with any names of which there are
enough, and a text belongs to one grid only. -/
theorem ofJson_toJson :
    (∀ (m : Mask) (names : List String), (∀ c ∈ m.cells.cells, c < names.length) →
      ∃ n : Mask, ofJson names m.toJson = .ok n ∧ ofJsonBytes names m.toBytes = .ok n ∧
        n.classes = names ∧ n.cells = m.cells ∧ n.height = m.height ∧ n.width = m.width ∧
        (names = m.classes → (n == m) = true)) ∧
    ∀ m n : Mask, m.toJson = n.toJson ↔ m.cells = n.cells := by
  constructor
  · intro m names h
    refine ⟨m.withNames names h, m.ofJson_text h, m.ofJsonBytes_bytes h, rfl, rfl, rfl, rfl, ?_⟩
    rintro rfl
    exact beq_self m
  · intro m n
    constructor
    · intro heq
      -- names enough for both masks
      have hm : ∀ c ∈ m.cells.cells, c < (m.classes ++ n.classes).length := by
        intro c hc
        have := m.inRange c hc
        rw [List.length_append]
        omega
      have hn : ∀ c ∈ n.cells.cells, c < (m.classes ++ n.classes).length := by
        intro c hc
        have := n.inRange c hc
        rw [List.length_append]
        omega
      have hread := m.ofJson_text hm
      rw [heq, n.ofJson_text hn] at hread
      have hmask : n.withNames _ hn = m.withNames _ hm := Except.ok.inj hread
      exact (congrArg Mask.cells hmask).symm
    · intro hcells
      have hdoc : m.toDatum = n.toDatum := by
        rw [toDatum_eq, toDatum_eq, hcells]
      rw [toJson, toJson, hdoc]

/-- A mask of three classes in two rows, the last class at its start and end. -/
def sample : Mask :=
  ⟨["sky", "tree", "road"], ⟨2, 2, #[2, 0, 1, 2], rfl⟩, by decide, by decide, by decide⟩

theorem ofJson_toJson_sample :
    (∀ c ∈ sample.cells.cells, c < ["a", "b", "c", "d"].length) ∧
      ∃ n : Mask, ofJson ["a", "b", "c", "d"] sample.toJson = .ok n ∧
        ofJsonBytes ["a", "b", "c", "d"] sample.toBytes = .ok n ∧ n.cells = sample.cells := by
  have h : ∀ c ∈ sample.cells.cells, c < ["a", "b", "c", "d"].length := by decide
  obtain ⟨n, hn, hb, _, hc, _⟩ := ofJson_toJson.1 sample ["a", "b", "c", "d"] h
  exact ⟨h, n, hn, hb, hc⟩

end Perception.Mask
