import Perception.Proofs.Json.Written
import Perception.Proofs.Text.Utf8

set_option autoImplicit false

/-! # Reading what was written

Plain data, not nested too deeply, come back from the line that they are written on, also with spaces
behind it (`read?_compactChars`). The lexemes of a written value are known (`cut_compactChars`);
what is left is that the reader makes the value of them again (`value_of_lexemes`), for which the
places of the tokens do not matter and one unit of fuel for each token is enough.
-/

namespace Perception.Json

/-! ## Depth and first lexemes -/

mutual

/-- How many lists and records stand one inside the other. -/
def depthOf : Datum → Nat
  | .list xs => itemsDepth xs + 1
  | .record es => membersDepth es + 1
  | _ => 0

def itemsDepth : List Datum → Nat
  | [] => 0
  | x :: xs => max (depthOf x) (itemsDepth xs)

def membersDepth : List (Datum × Datum) → Nat
  | [] => 0
  | (_, v) :: es => max (depthOf v) (membersDepth es)

end

/-- No value starts with a closing bracket. -/
theorem lexemesOf_head (d : Datum) :
    ∃ l ls, lexemesOf d = l :: ls ∧ l ≠ .closeList := by
  cases d with
  | list xs => exact ⟨_, _, by rw [lexemesOf], by simp⟩
  | record es => exact ⟨_, _, by rw [lexemesOf], by simp⟩
  | text s => exact ⟨_, [], by rw [lexemesOf], by simp⟩
  | _ => exact ⟨.atom _, [], rfl, by simp⟩

theorem itemLexemes_head (x : Datum) (xs : List Datum) :
    ∃ l ls, itemLexemes (x :: xs) = l :: ls ∧ l ≠ .closeList := by
  obtain ⟨l, ls, hl, hne⟩ := lexemesOf_head x
  cases xs with
  | nil => exact ⟨l, ls, hl, hne⟩
  | cons y xs =>
      refine ⟨l, ls ++ .comma :: itemLexemes (y :: xs), ?_, hne⟩
      rw [itemLexemes, hl, List.cons_append]

theorem memberLexemes_head (e : Datum × Datum) (es : List (Datum × Datum))
    (he : PlainMembers (e :: es)) :
    ∃ l ls, memberLexemes (e :: es) = l :: ls ∧ l ≠ .closeRecord := by
  obtain ⟨k, v⟩ := e
  obtain ⟨⟨s, rfl⟩, _⟩ := he
  cases es with
  | nil => exact ⟨_, _, by rw [memberLexemes], by simp [keyLexeme]⟩
  | cons e es => exact ⟨_, _, by rw [memberLexemes], by simp [keyLexeme]⟩

/-! ## Tokens by their lexemes -/

/-- The tokens of `a` and `b` one after the other are tokens of `a` and tokens of `b`. -/
theorem split_lexemes {ts : List Token} {a b : List Lexeme} (h : ts.map Token.lexeme = a ++ b) :
    ∃ us vs, ts = us ++ vs ∧ us.map Token.lexeme = a ∧ vs.map Token.lexeme = b := by
  obtain ⟨us, vs, hts, hu, hv⟩ := List.map_eq_append_iff.mp h
  exact ⟨us, vs, hts, hu, hv⟩

/-- The first token of `l :: a`. -/
theorem cons_lexemes {ts : List Token} {l : Lexeme} {a : List Lexeme}
    (h : ts.map Token.lexeme = l :: a) :
    ∃ n us, ts = ⟨l, n⟩ :: us ∧ us.map Token.lexeme = a := by
  obtain ⟨t, us, hts, ht, hu⟩ := List.map_eq_cons_iff.mp h
  exact ⟨t.rest, us, by rw [hts, ← ht], hu⟩

theorem single_lexeme {ts : List Token} {l : Lexeme} (h : ts.map Token.lexeme = [l]) :
    ∃ n, ts = [⟨l, n⟩] := by
  obtain ⟨n, us, rfl, hus⟩ := cons_lexemes h
  exact ⟨n, by rw [List.map_eq_nil_iff.mp hus]⟩

/-! ## The rules of the reader -/

theorem value_atom {fuel depth n : Nat} {d : Datum} {rest : List Token} :
    value (fuel + 1) depth (⟨.atom d, n⟩ :: rest) = .ok (d, rest) := rfl

theorem value_text {fuel depth n : Nat} {s : String} {rest : List Token} :
    value (fuel + 1) depth (⟨.text s.toList, n⟩ :: rest) = .ok (.text s, rest) := by
  simp only [value, String.ofList_toList]

theorem value_emptyList {fuel depth n m : Nat} {rest : List Token} :
    value (fuel + 1) (depth + 1) (⟨.openList, n⟩ :: ⟨.closeList, m⟩ :: rest)
      = .ok (.list [], rest) := rfl

/-- A list is its items, if it does not end at once. -/
theorem value_openList {fuel depth n : Nat} {ts : List Token}
    (hne : ∀ m us, ts ≠ ⟨.closeList, m⟩ :: us) :
    value (fuel + 1) (depth + 1) (⟨.openList, n⟩ :: ts)
      = (items fuel depth ts).map fun p => (.list p.1, p.2) := by
  simp only [value]

theorem value_list {fuel depth n : Nat} {ts rest : List Token} {xs : List Datum}
    (hne : ∀ m us, ts ≠ ⟨.closeList, m⟩ :: us) (h : items fuel depth ts = .ok (xs, rest)) :
    value (fuel + 1) (depth + 1) (⟨.openList, n⟩ :: ts) = .ok (.list xs, rest) := by
  rw [value_openList hne, h]
  rfl

theorem value_emptyRecord {fuel depth n m : Nat} {rest : List Token} :
    value (fuel + 1) (depth + 1) (⟨.openRecord, n⟩ :: ⟨.closeRecord, m⟩ :: rest)
      = .ok (.record [], rest) := rfl

/-- A record is its members, if it does not end at once. -/
theorem value_openRecord {fuel depth n : Nat} {ts : List Token}
    (hne : ∀ m us, ts ≠ ⟨.closeRecord, m⟩ :: us) :
    value (fuel + 1) (depth + 1) (⟨.openRecord, n⟩ :: ts)
      = (members fuel depth ts).map fun p => (.record (Datum.ofEntries p.1), p.2) := by
  simp only [value]

theorem value_record {fuel depth n : Nat} {ts rest : List Token} {es : List (Datum × Datum)}
    (hne : ∀ m us, ts ≠ ⟨.closeRecord, m⟩ :: us) (h : members fuel depth ts = .ok (es, rest)) :
    value (fuel + 1) (depth + 1) (⟨.openRecord, n⟩ :: ts)
      = .ok (.record (Datum.ofEntries es), rest) := by
  rw [value_openRecord hne, h]
  rfl

theorem items_last {fuel depth n : Nat} {ts rest : List Token} {x : Datum}
    (hx : value fuel depth ts = .ok (x, ⟨.closeList, n⟩ :: rest)) :
    items (fuel + 1) depth ts = .ok ([x], rest) := by
  rw [items, hx]
  rfl

/-- Behind a comma the items go on. -/
theorem items_comma {fuel depth n : Nat} {ts us : List Token} {x : Datum}
    (hx : value fuel depth ts = .ok (x, ⟨.comma, n⟩ :: us)) :
    items (fuel + 1) depth ts = (items fuel depth us).map fun p => (x :: p.1, p.2) := by
  rw [items, hx]
  rfl

theorem items_cons {fuel depth n : Nat} {ts us rest : List Token} {x : Datum} {xs : List Datum}
    (hx : value fuel depth ts = .ok (x, ⟨.comma, n⟩ :: us))
    (hxs : items fuel depth us = .ok (xs, rest)) :
    items (fuel + 1) depth ts = .ok (x :: xs, rest) := by
  rw [items_comma hx, hxs]
  rfl

theorem members_last {fuel depth n m k : Nat} {s : String} {ts rest : List Token} {v : Datum}
    (hv : value fuel depth ts = .ok (v, ⟨.closeRecord, k⟩ :: rest)) :
    members (fuel + 1) depth (⟨.text s.toList, n⟩ :: ⟨.colon, m⟩ :: ts)
      = .ok ([(.text s, v)], rest) := by
  rw [members, hv, String.ofList_toList]
  rfl

/-- Behind a comma the members go on. -/
theorem members_comma {fuel depth n m k : Nat} {key : List Char} {ts us : List Token} {v : Datum}
    (hv : value fuel depth ts = .ok (v, ⟨.comma, k⟩ :: us)) :
    members (fuel + 1) depth (⟨.text key, n⟩ :: ⟨.colon, m⟩ :: ts)
      = (members fuel depth us).map fun p => ((.text (String.ofList key), v) :: p.1, p.2) := by
  rw [members, hv]
  rfl

theorem members_cons {fuel depth n m k : Nat} {s : String} {ts us rest : List Token} {v : Datum}
    {es : List (Datum × Datum)} (hv : value fuel depth ts = .ok (v, ⟨.comma, k⟩ :: us))
    (hes : members fuel depth us = .ok (es, rest)) :
    members (fuel + 1) depth (⟨.text s.toList, n⟩ :: ⟨.colon, m⟩ :: ts)
      = .ok ((.text s, v) :: es, rest) := by
  rw [members_comma hv, hes, String.ofList_toList]
  rfl

/-! ## Reading a value -/

mutual

/-- **The reader makes a value of its lexemes**, whatever tokens follow. -/
theorem value_of_lexemes : ∀ (d : Datum) (fuel depth : Nat) (ts rest : List Token), Plain d →
    depthOf d ≤ depth → ts.map Token.lexeme = lexemesOf d → ts.length ≤ fuel →
    value fuel depth (ts ++ rest) = .ok (d, rest)
  | d, 0, depth, ts, rest, _, _, ht, hf => by
      obtain ⟨l, ls, hl, _⟩ := lexemesOf_head d
      rw [hl] at ht
      obtain ⟨n, us, rfl, _⟩ := cons_lexemes ht
      simp at hf
  | .null, fuel + 1, depth, ts, rest, _, _, ht, _ => by
      obtain ⟨n, rfl⟩ := single_lexeme ht
      exact value_atom
  | .bool b, fuel + 1, depth, ts, rest, _, _, ht, _ => by
      obtain ⟨n, rfl⟩ := single_lexeme ht
      exact value_atom
  | .int i, fuel + 1, depth, ts, rest, _, _, ht, _ => by
      obtain ⟨n, rfl⟩ := single_lexeme ht
      exact value_atom
  | .float x, fuel + 1, depth, ts, rest, _, _, ht, _ => by
      obtain ⟨n, rfl⟩ := single_lexeme ht
      exact value_atom
  | .text s, fuel + 1, depth, ts, rest, _, _, ht, _ => by
      obtain ⟨n, rfl⟩ := single_lexeme ht
      exact value_text
  | .list [], fuel + 1, depth + 1, ts, rest, _, _, ht, _ => by
      obtain ⟨n, us, rfl, hus⟩ := cons_lexemes ht
      obtain ⟨m, rfl⟩ := single_lexeme hus
      exact value_emptyList
  | .list (x :: xs), fuel + 1, depth + 1, ts, rest, hd, hdepth, ht, hf => by
      obtain ⟨n, us, rfl, hus⟩ := cons_lexemes ht
      -- the tokens between the brackets are those of the items
      obtain ⟨vs, ws, rfl, hvs, hws⟩ := split_lexemes hus
      obtain ⟨m, rfl⟩ := single_lexeme hws
      simp only [List.length_cons, List.length_append, List.length_nil] at hf
      have hxs := items_of_lexemes x xs fuel depth vs m rest hd (Nat.le_of_succ_le_succ hdepth)
        hvs (by omega)
      rw [List.cons_append, List.append_assoc, List.singleton_append]
      refine value_list ?_ hxs
      -- an item does not start with a closing bracket, so the list is not taken for an empty one
      intro k us hcon
      obtain ⟨l, ls, hl, hne⟩ := itemLexemes_head x xs
      rw [hl] at hvs
      obtain ⟨j, vs, rfl, _⟩ := cons_lexemes hvs
      rw [List.cons_append] at hcon
      cases hcon
      exact hne rfl
  | .record [], fuel + 1, depth + 1, ts, rest, _, _, ht, _ => by
      obtain ⟨n, us, rfl, hus⟩ := cons_lexemes ht
      obtain ⟨m, rfl⟩ := single_lexeme hus
      exact value_emptyRecord
  | .record (e :: es), fuel + 1, depth + 1, ts, rest, hd, hdepth, ht, hf => by
      obtain ⟨n, us, rfl, hus⟩ := cons_lexemes ht
      obtain ⟨vs, ws, rfl, hvs, hws⟩ := split_lexemes hus
      obtain ⟨m, rfl⟩ := single_lexeme hws
      simp only [List.length_cons, List.length_append, List.length_nil] at hf
      have hes := members_of_lexemes e es fuel depth vs m rest hd.1
        (Nat.le_of_succ_le_succ hdepth) hvs (by omega)
      rw [List.cons_append, List.append_assoc, List.singleton_append]
      have hread := value_record (n := n) ?_ hes
      · rwa [hd.2] at hread
      · intro k us hcon
        obtain ⟨l, ls, hl, hne⟩ := memberLexemes_head e es hd.1
        rw [hl] at hvs
        obtain ⟨j, vs, rfl, _⟩ := cons_lexemes hvs
        rw [List.cons_append] at hcon
        cases hcon
        exact hne rfl
  | .list _, _ + 1, 0, _, _, _, hdepth, _, _ => by simp [depthOf] at hdepth
  | .record _, _ + 1, 0, _, _, _, hdepth, _, _ => by simp [depthOf] at hdepth
  | .foreign _ _, _ + 1, _, _, _, hd, _, _, _ => hd.elim
termination_by structural _ fuel => fuel

/-- The items of a list up to its closing bracket. -/
theorem items_of_lexemes : ∀ (x : Datum) (xs : List Datum) (fuel depth : Nat) (ts : List Token)
    (n : Nat) (rest : List Token), PlainItems (x :: xs) → itemsDepth (x :: xs) ≤ depth →
    ts.map Token.lexeme = itemLexemes (x :: xs) → ts.length < fuel →
    items fuel depth (ts ++ ⟨.closeList, n⟩ :: rest) = .ok (x :: xs, rest)
  | x, xs, 0, _, _, _, _, _, _, _, hf => by omega
  | x, [], fuel + 1, depth, ts, n, rest, hd, hdepth, ht, hf => by
      have hx : depthOf x ≤ depth := Nat.le_trans (Nat.le_max_left _ _) hdepth
      exact items_last (value_of_lexemes x fuel depth ts _ hd.1 hx ht (by omega))
  | x, y :: xs, fuel + 1, depth, ts, n, rest, hd, hdepth, ht, hf => by
      have hx : depthOf x ≤ depth := Nat.le_trans (Nat.le_max_left _ _) hdepth
      have hxs : itemsDepth (y :: xs) ≤ depth := Nat.le_trans (Nat.le_max_right _ _) hdepth
      obtain ⟨us, vs, rfl, hus, hvs⟩ := split_lexemes ht
      obtain ⟨m, ws, rfl, hws⟩ := cons_lexemes hvs
      simp only [List.length_cons, List.length_append] at hf
      rw [List.append_assoc, List.cons_append]
      exact items_cons (value_of_lexemes x fuel depth us _ hd.1 hx hus (by omega))
        (items_of_lexemes y xs fuel depth ws n rest hd.2 hxs hws (by omega))
termination_by structural _ _ fuel => fuel

/-- The members of a record up to its closing brace. -/
theorem members_of_lexemes : ∀ (e : Datum × Datum) (es : List (Datum × Datum))
    (fuel depth : Nat) (ts : List Token) (n : Nat) (rest : List Token), PlainMembers (e :: es) →
    membersDepth (e :: es) ≤ depth → ts.map Token.lexeme = memberLexemes (e :: es) →
    ts.length < fuel →
    members fuel depth (ts ++ ⟨.closeRecord, n⟩ :: rest) = .ok (e :: es, rest)
  | e, es, 0, _, _, _, _, _, _, _, hf => by omega
  | (k, v), [], fuel + 1, depth, ts, n, rest, hd, hdepth, ht, hf => by
      obtain ⟨⟨s, rfl⟩, hv, _⟩ := hd
      have hdepth : depthOf v ≤ depth := Nat.le_trans (Nat.le_max_left _ _) hdepth
      obtain ⟨m, us, rfl, hus⟩ := cons_lexemes ht
      obtain ⟨j, vs, rfl, hvs⟩ := cons_lexemes hus
      simp only [List.length_cons] at hf
      exact members_last (value_of_lexemes v fuel depth vs _ hv hdepth hvs (by omega))
  | (k, v), e :: es, fuel + 1, depth, ts, n, rest, hd, hdepth, ht, hf => by
      obtain ⟨⟨s, rfl⟩, hv, hes⟩ := hd
      have hdv : depthOf v ≤ depth := Nat.le_trans (Nat.le_max_left _ _) hdepth
      have hdes : membersDepth (e :: es) ≤ depth := Nat.le_trans (Nat.le_max_right _ _) hdepth
      obtain ⟨m, us, rfl, hus⟩ := cons_lexemes ht
      obtain ⟨j, vs, rfl, hvs⟩ := cons_lexemes hus
      obtain ⟨ws, zs, rfl, hws, hzs⟩ := split_lexemes hvs
      obtain ⟨i, xs, rfl, hxs⟩ := cons_lexemes hzs
      simp only [List.length_cons, List.length_append] at hf
      rw [List.cons_append, List.cons_append, List.append_assoc, List.cons_append]
      exact members_cons (value_of_lexemes v fuel depth ws _ hv hdv hws (by omega))
        (members_of_lexemes e es fuel depth xs n rest hes hdes hxs (by omega))
termination_by structural _ _ fuel => fuel

end

/-! ## Reading a text -/

theorem document_of_lexemes {d : Datum} {ts : List Token} (hd : Plain d)
    (hdepth : depthOf d ≤ maxDepth) (ht : ts.map Token.lexeme = lexemesOf d) :
    document ts = .ok d := by
  have hread := value_of_lexemes d (2 * ts.length + 2) maxDepth ts [] hd hdepth ht (by omega)
  rw [List.append_nil] at hread
  rw [document, hread]

/-- **What is cut into the lexemes of plain data** reads as them, spaces behind it or not. -/
theorem read?_of_cut {d : Datum} {cs spaces : List Char} (hd : Plain d)
    (hdepth : depthOf d ≤ maxDepth) (hs : ∀ c ∈ spaces, isSpace c = true)
    (hcut : Cut cs (lexemesOf d)) : read? (cs ++ spaces) = .ok d := by
  have hends : EndsNumber spaces := by
    have h := endsNumber_blanks hs (nofun : EndsNumber [])
    rwa [List.append_nil] at h
  have hblank : lexemes spaces = [] := by
    have h := lexemes_blanks hs []
    rwa [List.append_nil] at h
  have hlexemes : lexemes (cs ++ spaces) = lexemesOf d := by
    rw [hcut spaces hends, hblank, List.append_nil]
  rw [read?, document_of_lexemes hd hdepth hlexemes]
  rfl

/-- **Reading what was written.** Plain data come back from their line, spaces behind it or not. -/
theorem read?_compactChars {d : Datum} {spaces : List Char} (hd : Plain d)
    (hdepth : depthOf d ≤ maxDepth) (hs : ∀ c ∈ spaces, isSpace c = true) :
    read? (compactChars d ++ spaces) = .ok d :=
  read?_of_cut hd hdepth hs (cut_compactChars d hd)

/-! ## Reading bytes -/

theorem joinHalves_map_toNat (cs : List Char) : joinHalves (cs.map Char.toNat) = cs := by
  induction cs with
  | nil => rfl
  | cons c cs ih =>
      have hcons := joinHalves_cons (cs.map Char.toNat) (not_isHalf c)
      rw [List.map_cons, hcons, ih, Char.ofNat_toNat]

/-- Every mark starts with a byte that is null or above ASCII. -/
theorem mark?_ascii {a : UInt8} (bs : Bytes) (ha : a ≠ 0) (ha' : a < 0x80) :
    Encoding.mark? (a :: bs) = none := by
  have hne : ∀ c : UInt8, 0x80 ≤ c → (c == a) = false := by
    intro c hc
    refine beq_eq_false_iff_ne.mpr ?_
    rintro rfl
    exact absurd ha' (UInt8.not_lt.mpr hc)
  have h0 : ((0 : UInt8) == a) = false := beq_eq_false_iff_ne.mpr ha.symm
  have hFF := hne 0xFF (by decide)
  have hFE := hne 0xFE (by decide)
  have hEF := hne 0xEF (by decide)
  simp only [Encoding.mark?, List.isPrefixOf, h0, hFF, hFE, hEF, Bool.false_and,
    Bool.false_eq_true, if_false]

theorem ofNulls_ascii {a b : UInt8} (bs : Bytes) (ha : a ≠ 0) (hb : b ≠ 0) :
    Encoding.ofNulls (a :: b :: bs) = .utf8 := by
  rcases bs with _ | ⟨c, _ | ⟨d, bs⟩⟩
  · rw [Encoding.ofNulls, if_neg ha, if_neg hb]
  · rfl
  · rw [Encoding.ofNulls, if_neg ha, if_neg hb]

/-- Bytes that start with two ASCII characters show UTF-8. -/
theorem detect_ascii {a b : UInt8} (bs : Bytes) (ha : a ≠ 0) (ha' : a < 0x80) (hb : b ≠ 0) :
    Encoding.detect (a :: b :: bs) = (.utf8, 0) := by
  rw [Encoding.detect, mark?_ascii _ ha ha', ofNulls_ascii _ ha hb]
  rfl

theorem encodeChar_ascii {c : Char} (h : c.toNat < 0x80) :
    Utf8.encodeChar c = [UInt8.ofNat c.toNat] := by
  simp only [Utf8.encodeChar, if_pos h]

/-- The bytes of a text that starts with two ASCII characters, as every document does, give the
text. -/
theorem textOf?_encode {a b : Char} {cs : List Char} (ha : a.toNat < 0x80) (ha' : a.toNat ≠ 0)
    (hb : b.toNat < 0x80) (hb' : b.toNat ≠ 0) :
    textOf? (Utf8.encode (a :: b :: cs)) = some (a :: b :: cs) := by
  have happ : Utf8.encode (a :: b :: cs)
      = UInt8.ofNat a.toNat :: UInt8.ofNat b.toNat :: Utf8.encode cs := by
    simp [Utf8.encode, encodeChar_ascii ha, encodeChar_ascii hb]
  have hbyte : ∀ n : Nat, n < 0x80 → n ≠ 0 → UInt8.ofNat n ≠ 0 ∧ UInt8.ofNat n < 0x80 := by
    intro n hn h0
    have hval : (UInt8.ofNat n).toNat = n := Utf8.toNat_ofNat (by omega)
    refine ⟨fun h => h0 ?_, ?_⟩
    · rw [← hval, h]
      rfl
    · rw [UInt8.lt_iff_toNat_lt, hval]
      exact hn
  have hdetect : Encoding.detect (Utf8.encode (a :: b :: cs)) = (.utf8, 0) := by
    rw [happ]
    exact detect_ascii _ (hbyte _ ha ha').1 (hbyte _ ha ha').2 (hbyte _ hb hb').1
  rw [textOf?, hdetect]
  show (Utf8.codePoints? (Utf8.encode (a :: b :: cs))).map joinHalves = _
  rw [Utf8.codePoints?_encode, Option.map_some, joinHalves_map_toNat]

end Perception.Json
