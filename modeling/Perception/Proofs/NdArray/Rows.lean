import Perception.Proofs.NdArray.ElementType

set_option autoImplicit false

/-! # The array of some rows

Rows of equal length that hold natural numbers of less than 63 bits have an array of two
dimensions: its type is the usual one of whole numbers, and its elements are the numbers, row after
row (`NdArray.ofNested_rows`).
-/

namespace Perception.NdArray

def ofRow (row : List Nat) : Datum := .list (row.map fun (n : Nat) => .int n)

def ofRows (rows : List (List Nat)) : Datum := .list (rows.map ofRow)

/-! ## Shape -/

theorem shape?_int (i : Int) : shape? (.int i) = some [] := rfl

theorem allHaveShape_of_forall {s : List Nat} {xs : List Datum}
    (h : ∀ x ∈ xs, shape? x = some s) : allHaveShape s xs = true := by
  induction xs with
  | nil => rfl
  | cons x xs ih =>
      rw [allHaveShape, h x (by simp), ih fun y hy => h y (by simp [hy])]
      simp

/-- Items that all have one shape make a list whose shape has one extent more. -/
theorem shape?_list {s : List Nat} {xs : List Datum} (hne : xs ≠ [])
    (h : ∀ x ∈ xs, shape? x = some s) : shape? (.list xs) = some (xs.length :: s) := by
  cases xs with
  | nil => exact absurd rfl hne
  | cons x xs =>
      have hxs : allHaveShape s xs = true :=
        allHaveShape_of_forall fun y hy => h y (by simp [hy])
      rw [shape?, h x (by simp)]
      simp [hxs]

theorem shape?_ofRow {row : List Nat} (h : row ≠ []) : shape? (ofRow row) = some [row.length] := by
  have hitems : ∀ x ∈ row.map (fun (n : Nat) => Datum.int n), shape? x = some [] := by
    intro x hx
    obtain ⟨n, _, rfl⟩ := List.mem_map.mp hx
    exact shape?_int n
  rw [ofRow, shape?_list (by simpa using h) hitems, List.length_map]

theorem shape?_ofRows {rows : List (List Nat)} {w : Nat} (hne : rows ≠ []) (hw : 0 < w)
    (hlen : ∀ row ∈ rows, row.length = w) : shape? (ofRows rows) = some [rows.length, w] := by
  have hitems : ∀ x ∈ rows.map ofRow, shape? x = some [w] := by
    intro x hx
    obtain ⟨row, hrow, rfl⟩ := List.mem_map.mp hx
    have hrow' : row ≠ [] := by
      rintro rfl
      have := hlen _ hrow
      simp at this
      omega
    rw [shape?_ofRow hrow', hlen row hrow]
  rw [ofRows, shape?_list (by simpa using hne) hitems, List.length_map]

/-! ## Leaves -/

theorem leaves_ofRow (row : List Nat) : leaves (ofRow row) = row.map fun (n : Nat) => .int n := by
  rw [ofRow, leaves]
  induction row with
  | nil => rfl
  | cons n row ih =>
      rw [List.map_cons, leavesOf, ih]
      rfl

theorem leaves_ofRows (rows : List (List Nat)) :
    leaves (ofRows rows) = rows.flatten.map fun (n : Nat) => .int n := by
  rw [ofRows, leaves]
  induction rows with
  | nil => rfl
  | cons row rows ih =>
      rw [List.map_cons, leavesOf, ih, leaves_ofRow, List.flatten_cons, List.map_append]

/-! ## Element type -/

theorem typeOf_nats {ns : List Nat} (hns : ∀ n ∈ ns, n < 0x8000000000000000) (hne : ns ≠ []) :
    typeOf (ns.map fun (n : Nat) => .int n) = .signed 64 := by
  have hleaf : ∀ n ∈ ns, scalarType (.int n) = .signed 64 := fun n hn =>
    (scalarType_eq_signed_iff _).mpr ⟨n, rfl, by omega, Int.ofNat_lt.mpr (hns n hn)⟩
  obtain ⟨n, hn⟩ := List.exists_mem_of_ne_nil ns hne
  refine (typeOf_eq_iff rfl _).mpr ⟨⟨_, List.mem_map_of_mem hn, hleaf n hn⟩, ?_⟩
  exact List.forall_mem_map.mpr fun k hk => Or.inl (hleaf k hk)

/-! ## The array -/

/-- **The array of some rows** has their numbers one after the other. -/
theorem ofNested_rows {rows : List (List Nat)} {w : Nat} (hne : rows ≠ []) (hw : 0 < w)
    (hlen : ∀ row ∈ rows, row.length = w)
    (hfit : ∀ n ∈ rows.flatten, n < 0x8000000000000000) :
    ofNested (ofRows rows) = .ok ⟨.signed 64, [rows.length, w],
      (rows.flatten.map fun (n : Nat) => Datum.int n).toArray⟩ := by
  have hcells : rows.flatten ≠ [] := by
    cases rows with
    | nil => exact absurd rfl hne
    | cons row rows =>
        have hrow := hlen row (by simp)
        intro h
        rw [List.flatten_cons, List.append_eq_nil_iff] at h
        rw [h.1] at hrow
        simp at hrow
        omega
  have hsettle : ((rows.flatten.map fun (n : Nat) => Datum.int n).map (settle (.signed 64)))
      = rows.flatten.map fun (n : Nat) => Datum.int n := by
    rw [List.map_map]
    rfl
  rw [ofNested, shape?_ofRows hne hw hlen]
  simp only [leaves_ofRows, typeOf_nats hfit hcells]
  rw [if_neg (by simp [maxRank]), hsettle]

end Perception.NdArray
