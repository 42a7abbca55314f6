import Perception.Proofs.Json.RoundTrip
import Perception.Proofs.Json.Spelling
import Perception.Proofs.Outcome

set_option autoImplicit false

/-! # What the reader accepts

The reader accepts the grammar. What it makes of a text is what the text denotes as a document
(`document_of_read?`); a document is read as what it denotes, unless the levels do not suffice
(`read?_of_document`); and these do not suffice only for a text that is nested too deeply
(`tooDeep_lt_nesting`). Main result: `parse?_eq_ok_iff`.

The reader knows its tokens only, so that tokens follow a text (`Follows`) is what carries each
induction. What a part of the reader accepts is found from its tokens, by recursion over the fuel
(`value_sound`); that it accepts a part of the grammar, by recursion over the derivation
(`value_complete`), for which two units of fuel for a token are enough.
-/

namespace Perception.Json

/-! ## What the reader does with its tokens -/

section Rules

variable (fuel depth n : Nat) (ts : List Token)

/-- An opening bracket finds no level left, is closed at once, or has items behind it. -/
theorem value_openList_cases :
    (depth = 0 ∧ value (fuel + 1) depth (⟨.openList, n⟩ :: ts) = .error .tooDeep) ∨
    (∃ m us, ts = ⟨.closeList, m⟩ :: us ∧
      value (fuel + 1) depth (⟨.openList, n⟩ :: ts) = .ok (.list [], us)) ∨
    ∃ below, depth = below + 1 ∧ value (fuel + 1) depth (⟨.openList, n⟩ :: ts)
      = (items fuel below ts).map fun p => (.list p.1, p.2) := by
  cases depth with
  | zero => exact Or.inl ⟨rfl, rfl⟩
  | succ below =>
      by_cases hclose : ∃ m us, ts = ⟨.closeList, m⟩ :: us
      · obtain ⟨m, us, rfl⟩ := hclose
        exact Or.inr (Or.inl ⟨m, us, rfl, rfl⟩)
      · exact Or.inr (Or.inr ⟨below, rfl, value_openList fun m us h => hclose ⟨m, us, h⟩⟩)

/-- An opening brace finds no level left, is closed at once, or has members behind it. -/
theorem value_openRecord_cases :
    (depth = 0 ∧ value (fuel + 1) depth (⟨.openRecord, n⟩ :: ts) = .error .tooDeep) ∨
    (∃ m us, ts = ⟨.closeRecord, m⟩ :: us ∧
      value (fuel + 1) depth (⟨.openRecord, n⟩ :: ts) = .ok (.record [], us)) ∨
    ∃ below, depth = below + 1 ∧ value (fuel + 1) depth (⟨.openRecord, n⟩ :: ts)
      = (members fuel below ts).map fun p => (.record (Datum.ofEntries p.1), p.2) := by
  cases depth with
  | zero => exact Or.inl ⟨rfl, rfl⟩
  | succ below =>
      by_cases hclose : ∃ m us, ts = ⟨.closeRecord, m⟩ :: us
      · obtain ⟨m, us, rfl⟩ := hclose
        exact Or.inr (Or.inl ⟨m, us, rfl, rfl⟩)
      · exact Or.inr (Or.inr ⟨below, rfl, value_openRecord fun m us h => hclose ⟨m, us, h⟩⟩)

/-- What comes of items follows from their first value and the token behind it. -/
theorem items_cases :
    (∃ e, value fuel depth ts = .error e ∧ items (fuel + 1) depth ts = .error e) ∨
    (∃ x m us, value fuel depth ts = .ok (x, ⟨.closeList, m⟩ :: us) ∧
      items (fuel + 1) depth ts = .ok ([x], us)) ∨
    (∃ x m us, value fuel depth ts = .ok (x, ⟨.comma, m⟩ :: us) ∧
      items (fuel + 1) depth ts = (items fuel depth us).map fun p => (x :: p.1, p.2)) ∨
    ∃ cause m, items (fuel + 1) depth ts = .error (.malformed cause m) := by
  rw [items]
  cases value fuel depth ts with
  | error e => exact Or.inl ⟨e, rfl, rfl⟩
  | ok found =>
      obtain ⟨x, _ | ⟨⟨l, m⟩, us⟩⟩ := found
      · exact Or.inr (Or.inr (Or.inr ⟨_, _, rfl⟩))
      · cases l with
        | closeList => exact Or.inr (Or.inl ⟨x, m, us, rfl, rfl⟩)
        | comma => exact Or.inr (Or.inr (Or.inl ⟨x, m, us, rfl, rfl⟩))
        | _ => exact Or.inr (Or.inr (Or.inr ⟨_, m, rfl⟩))

/-- Members start with a key, or the text is malformed. -/
theorem members_key :
    (∃ s k m us, ts = ⟨.text s, k⟩ :: ⟨.colon, m⟩ :: us) ∨
    ∃ cause m, members (fuel + 1) depth ts = .error (.malformed cause m) := by
  rcases ts with _ | ⟨⟨l, k⟩, ts⟩
  · exact Or.inr ⟨_, _, rfl⟩
  · cases l with
    | text s =>
        rcases ts with _ | ⟨⟨l, m⟩, us⟩
        · exact Or.inr ⟨_, _, rfl⟩
        · cases l with
          | colon => exact Or.inl ⟨s, k, m, us, rfl⟩
          | _ => exact Or.inr ⟨_, m, rfl⟩
    | _ => exact Or.inr ⟨_, _, rfl⟩

/-- What comes of members follows from their first value and the token behind it. -/
theorem members_cases (s : List Char) (k m : Nat) :
    (∃ e, value fuel depth ts = .error e ∧
      members (fuel + 1) depth (⟨.text s, k⟩ :: ⟨.colon, m⟩ :: ts) = .error e) ∨
    (∃ x n us, value fuel depth ts = .ok (x, ⟨.closeRecord, n⟩ :: us) ∧
      members (fuel + 1) depth (⟨.text s, k⟩ :: ⟨.colon, m⟩ :: ts)
        = .ok ([(.text (String.ofList s), x)], us)) ∨
    (∃ x n us, value fuel depth ts = .ok (x, ⟨.comma, n⟩ :: us) ∧
      members (fuel + 1) depth (⟨.text s, k⟩ :: ⟨.colon, m⟩ :: ts)
        = (members fuel depth us).map fun p => ((.text (String.ofList s), x) :: p.1, p.2)) ∨
    ∃ cause n, members (fuel + 1) depth (⟨.text s, k⟩ :: ⟨.colon, m⟩ :: ts)
      = .error (.malformed cause n) := by
  rw [members]
  cases value fuel depth ts with
  | error e => exact Or.inl ⟨e, rfl, rfl⟩
  | ok found =>
      obtain ⟨x, _ | ⟨⟨l, n⟩, us⟩⟩ := found
      · exact Or.inr (Or.inr (Or.inr ⟨_, _, rfl⟩))
      · cases l with
        | closeRecord => exact Or.inr (Or.inl ⟨x, n, us, rfl, rfl⟩)
        | comma => exact Or.inr (Or.inr (Or.inl ⟨x, n, us, rfl, rfl⟩))
        | _ => exact Or.inr (Or.inr (Or.inr ⟨_, n, rfl⟩))

end Rules

/-! ## Tokens that follow a text -/

def Follows (ts : List Token) (cs : List Char) : Prop := ts.map Token.lexeme = lexemes cs

theorem Follows.of_blanks {ts : List Token} {cs rest : List Char} (h : Follows ts cs)
    (hb : Blanks cs rest) : Follows ts rest := h.trans hb.lexemes_eq

theorem Follows.of_lexemes {l : Lexeme} {ts : List Token} {cs rest : List Char}
    (h : Follows ts cs) (hcs : lexemes cs = l :: lexemes rest) :
    ∃ n us, ts = ⟨l, n⟩ :: us ∧ Follows us rest := cons_lexemes (h.trans hcs)

theorem Follows.of_key {ts : List Token} {cs a b c : List Char} {ns : List Nat} (h : Follows ts cs)
    (ha : Blanks cs ('"' :: a)) (hk : Inside a ns b) (hb : Blanks b (':' :: c)) :
    ∃ n m us, ts = ⟨.text (joinHalves ns), n⟩ :: ⟨.colon, m⟩ :: us ∧ Follows us c := by
  obtain ⟨n, vs, rfl, hvs⟩ := (h.of_blanks ha).of_lexemes (lexemes_inside hk)
  obtain ⟨m, us, rfl, hus⟩ := (hvs.of_blanks hb).of_lexemes (lexemes_colon c)
  exact ⟨n, m, us, rfl, hus⟩

/-- A token that is neither broken nor too long a number is spelled behind blanks. -/
theorem Follows.spells {l : Lexeme} {n : Nat} {ts : List Token} {cs : List Char}
    (h : Follows (⟨l, n⟩ :: ts) cs) (hl : l.isSound = true) :
    ∃ a rest, Blanks cs a ∧ Spells a l rest ∧ Follows ts rest :=
  exists_spells h.symm hl

/-- A key with its colon is spelled behind blanks. -/
theorem Follows.key {s : List Char} {k m : Nat} {ts : List Token} {cs : List Char}
    (h : Follows (⟨.text s, k⟩ :: ⟨.colon, m⟩ :: ts) cs) :
    ∃ ns a b c, s = joinHalves ns ∧ Blanks cs ('"' :: a) ∧ Blanks b (':' :: c) ∧ Inside a ns b ∧
      Follows ts c := by
  obtain ⟨_, b, ha, hspells, hcolon⟩ := h.spells rfl
  cases hspells with
  | text hinside =>
      obtain ⟨_, c, hb, hspells, hts⟩ := hcolon.spells rfl
      cases hspells
      exact ⟨_, _, b, c, rfl, ha, hb, hinside, hts⟩

/-! ## What was read is in the grammar -/

mutual

/-- **The reader reads values only.** -/
theorem value_sound : ∀ (fuel depth : Nat) (ts us : List Token) (cs : List Char) (d : Datum),
    Follows ts cs → value fuel depth ts = .ok (d, us) →
    ∃ a rest, Blanks cs a ∧ Value a d rest ∧ Follows us rest
  | 0, _, _, _, _, _, _, h => by cases h
  | _ + 1, _, [], _, _, _, _, h => by cases h
  | fuel + 1, depth, ⟨l, n⟩ :: ts, us, cs, d, hts, h => by
      -- no other lexeme starts a value; broken ones and numbers too long have no spelling
      cases l with
      | atom d' =>
          cases h
          obtain ⟨a, rest, ha, hspells, hus⟩ := hts.spells rfl
          cases hspells with
          | atom hatom => exact ⟨_, rest, ha, .atom hatom rest, hus⟩
      | text s =>
          cases h
          obtain ⟨a, rest, ha, hspells, hus⟩ := hts.spells rfl
          cases hspells with
          | text hinside => exact ⟨_, rest, ha, .text hinside, hus⟩
      | openList =>
          obtain ⟨a, rest, ha, hspells, hts⟩ := hts.spells rfl
          cases hspells
          rcases value_openList_cases fuel depth n ts with
            ⟨-, hdeep⟩ | ⟨m, vs, rfl, hclose⟩ | ⟨below, -, hitems⟩
          · rw [hdeep] at h
            cases h
          · rw [hclose] at h
            cases h
            obtain ⟨b, after, hb, hspells, hus⟩ := hts.spells rfl
            cases hspells
            exact ⟨_, after, ha, .noItems hb, hus⟩
          · rw [hitems] at h
            obtain ⟨found, hxs, heq⟩ := Outcome.exists_of_map_ok h
            cases heq
            obtain ⟨after, hvalues, hus⟩ := items_sound fuel below ts _ rest _ hts hxs
            exact ⟨_, after, ha, .list hvalues, hus⟩
      | openRecord =>
          obtain ⟨a, rest, ha, hspells, hts⟩ := hts.spells rfl
          cases hspells
          rcases value_openRecord_cases fuel depth n ts with
            ⟨-, hdeep⟩ | ⟨m, vs, rfl, hclose⟩ | ⟨below, -, hmembers⟩
          · rw [hdeep] at h
            cases h
          · rw [hclose] at h
            cases h
            obtain ⟨b, after, hb, hspells, hus⟩ := hts.spells rfl
            cases hspells
            exact ⟨_, after, ha, .noMembers hb, hus⟩
          · rw [hmembers] at h
            obtain ⟨found, hes, heq⟩ := Outcome.exists_of_map_ok h
            cases heq
            obtain ⟨after, hvalues, hus⟩ := members_sound fuel below ts _ rest _ hts hes
            exact ⟨_, after, ha, .record hvalues, hus⟩
      | _ => cases h

/-- The reader reads items up to their closing bracket only. -/
theorem items_sound : ∀ (fuel depth : Nat) (ts us : List Token) (cs : List Char)
    (xs : List Datum), Follows ts cs → items fuel depth ts = .ok (xs, us) →
    ∃ rest, Items cs xs rest ∧ Follows us rest
  | 0, _, _, _, _, _, _, h => by cases h
  | fuel + 1, depth, ts, us, cs, xs, hts, h => by
      rcases items_cases fuel depth ts with
        ⟨e, -, herr⟩ | ⟨x, m, vs, hx, hlast⟩ | ⟨x, m, vs, hx, hmore⟩ | ⟨cause, m, herr⟩
      · rw [herr] at h
        cases h
      · rw [hlast] at h
        cases h
        obtain ⟨a, b, ha, hvalue, hvs⟩ := value_sound fuel depth ts _ cs x hts hx
        obtain ⟨b', rest, hb, hspells, hus⟩ := hvs.spells rfl
        cases hspells
        exact ⟨rest, .last ha hvalue hb, hus⟩
      · rw [hmore] at h
        obtain ⟨found, hxs, heq⟩ := Outcome.exists_of_map_ok h
        cases heq
        obtain ⟨a, b, ha, hvalue, hvs⟩ := value_sound fuel depth ts _ cs x hts hx
        obtain ⟨b', c, hb, hspells, hvs⟩ := hvs.spells rfl
        cases hspells
        obtain ⟨rest, hrest, hus⟩ := items_sound fuel depth vs _ c _ hvs hxs
        exact ⟨rest, .cons ha hvalue hb hrest, hus⟩
      · rw [herr] at h
        cases h

/-- The reader reads members up to their closing brace only. -/
theorem members_sound : ∀ (fuel depth : Nat) (ts us : List Token) (cs : List Char)
    (es : List (Datum × Datum)), Follows ts cs → members fuel depth ts = .ok (es, us) →
    ∃ rest, Members cs es rest ∧ Follows us rest
  | 0, _, _, _, _, _, _, h => by cases h
  | fuel + 1, depth, ts, us, cs, es, hts, h => by
      rcases members_key fuel depth ts with ⟨s, k, m, ts, rfl⟩ | ⟨cause, m, herr⟩
      · obtain ⟨ns, a, b, c, rfl, hkey, hb, hinside, hts⟩ := hts.key
        rcases members_cases fuel depth ts (joinHalves ns) k m with
          ⟨e, -, herr⟩ | ⟨x, n, vs, hx, hlast⟩ | ⟨x, n, vs, hx, hmore⟩ | ⟨cause, n, herr⟩
        · rw [herr] at h
          cases h
        · rw [hlast] at h
          cases h
          obtain ⟨d, d', hd, hvalue, hvs⟩ := value_sound fuel depth ts _ c x hts hx
          obtain ⟨b', rest, hend, hspells, hus⟩ := hvs.spells rfl
          cases hspells
          exact ⟨rest, .last (.mk hkey hinside hb hd hvalue) hend, hus⟩
        · rw [hmore] at h
          obtain ⟨found, hes, heq⟩ := Outcome.exists_of_map_ok h
          cases heq
          obtain ⟨d, d', hd, hvalue, hvs⟩ := value_sound fuel depth ts _ c x hts hx
          obtain ⟨b', after, hcomma, hspells, hvs⟩ := hvs.spells rfl
          cases hspells
          obtain ⟨rest, hrest, hus⟩ := members_sound fuel depth vs _ after _ hvs hes
          exact ⟨rest, .cons (.mk hkey hinside hb hd hvalue) hcomma hrest, hus⟩
        · rw [herr] at h
          cases h
      · rw [herr] at h
        cases h

end

/-! ## Levels that do not suffice -/

mutual

/-- **Where the levels do not suffice**, more brackets are open in the text than there are levels. -/
theorem value_tooDeep : ∀ (fuel depth : Nat) (ts : List Token) (cs : List Char), Follows ts cs →
    value fuel depth ts = .error .tooDeep →
    ∀ opened, opened + depth < nestingFrom false opened cs
  | 0, depth, ts, _, _, h, _ => by
      rcases ts with _ | ⟨t, ts⟩ <;> cases h
  | _ + 1, _, [], _, _, h, _ => by cases h
  | fuel + 1, depth, ⟨l, n⟩ :: ts, cs, hts, h, opened => by
      cases l with
      -- a bracket takes a level, and opens one in the text
      | openList =>
          obtain ⟨a, rest, ha, hspells, hts⟩ := hts.spells rfl
          cases hspells
          rw [ha.nesting_eq, nestingFrom_openList]
          rcases value_openList_cases fuel depth n ts with
            ⟨rfl, -⟩ | ⟨m, vs, rfl, hclose⟩ | ⟨below, rfl, hitems⟩
          · exact le_nestingFrom false (opened + 1) rest
          · rw [hclose] at h
            cases h
          · rw [hitems] at h
            have hdeep := items_tooDeep fuel below ts rest hts (Outcome.eq_error_of_map h)
              (opened + 1)
            omega
      | openRecord =>
          obtain ⟨a, rest, ha, hspells, hts⟩ := hts.spells rfl
          cases hspells
          rw [ha.nesting_eq, nestingFrom_openRecord]
          rcases value_openRecord_cases fuel depth n ts with
            ⟨rfl, -⟩ | ⟨m, vs, rfl, hclose⟩ | ⟨below, rfl, hmembers⟩
          · exact le_nestingFrom false (opened + 1) rest
          · rw [hclose] at h
            cases h
          · rw [hmembers] at h
            have hdeep := members_tooDeep fuel below ts rest hts (Outcome.eq_error_of_map h)
              (opened + 1)
            omega
      | _ => cases h

theorem items_tooDeep : ∀ (fuel depth : Nat) (ts : List Token) (cs : List Char), Follows ts cs →
    items fuel depth ts = .error .tooDeep →
    ∀ opened, opened + depth < nestingFrom false opened cs
  | 0, depth, ts, _, _, h, _ => by
      rcases ts with _ | ⟨t, ts⟩ <;> cases h
  | fuel + 1, depth, ts, cs, hts, h, opened => by
      rcases items_cases fuel depth ts with
        ⟨e, hx, herr⟩ | ⟨x, m, vs, hx, hlast⟩ | ⟨x, m, vs, hx, hmore⟩ | ⟨cause, m, herr⟩
      · rw [herr] at h
        cases h
        exact value_tooDeep fuel depth ts cs hts hx opened
      · rw [hlast] at h
        cases h
      · -- what follows the first value is nested no deeper than the text from its start on
        rw [hmore] at h
        obtain ⟨a, b, ha, hvalue, hvs⟩ := value_sound fuel depth ts _ cs x hts hx
        obtain ⟨b', c, hb, hspells, hvs⟩ := hvs.spells rfl
        cases hspells
        have hdeep := items_tooDeep fuel depth vs c hvs (Outcome.eq_error_of_map h) opened
        have hle := hvalue.nesting_le opened
        rw [hb.nesting_eq, nestingFrom_comma, ← ha.nesting_eq] at hle
        exact Nat.lt_of_lt_of_le hdeep hle
      · rw [herr] at h
        cases h

theorem members_tooDeep : ∀ (fuel depth : Nat) (ts : List Token) (cs : List Char), Follows ts cs →
    members fuel depth ts = .error .tooDeep →
    ∀ opened, opened + depth < nestingFrom false opened cs
  | 0, depth, ts, _, _, h, _ => by
      rcases ts with _ | ⟨t, ts⟩ <;> cases h
  | fuel + 1, depth, ts, cs, hts, h, opened => by
      rcases members_key fuel depth ts with ⟨s, k, m, ts, rfl⟩ | ⟨cause, m, herr⟩
      · obtain ⟨ns, a, b, c, rfl, hkey, hb, hinside, hts⟩ := hts.key
        rcases members_cases fuel depth ts (joinHalves ns) k m with
          ⟨e, hx, herr⟩ | ⟨x, n, vs, hx, hlast⟩ | ⟨x, n, vs, hx, hmore⟩ | ⟨cause, n, herr⟩
        · rw [herr] at h
          cases h
          rw [nesting_of_key hkey hinside hb]
          exact value_tooDeep fuel depth ts c hts hx opened
        · rw [hlast] at h
          cases h
        · rw [hmore] at h
          obtain ⟨d, d', hd, hvalue, hvs⟩ := value_sound fuel depth ts _ c x hts hx
          obtain ⟨b', after, hcomma, hspells, hvs⟩ := hvs.spells rfl
          cases hspells
          have hdeep := members_tooDeep fuel depth vs after hvs (Outcome.eq_error_of_map h) opened
          have hle := (Member.mk hkey hinside hb hd hvalue).nesting_le opened
          rw [hcomma.nesting_eq, nestingFrom_comma] at hle
          exact Nat.lt_of_lt_of_le hdeep hle
        · rw [herr] at h
          cases h
      · rw [herr] at h
        cases h

end

/-! ## The grammar is read -/

/-- The reader reads a part of a text as `x`, or runs out of levels. -/
def Reads {α : Type} (ts : List Token) (rest : List Char) (x : α)
    (o : Except Stop (α × List Token)) : Prop :=
  o = .error .tooDeep ∨ ∃ us, Follows us rest ∧ us.length < ts.length ∧ o = .ok (x, us)

section Reads

variable {α β : Type} {ts us : List Token} {rest : List Char} {x : α}

theorem not_reads_malformed {cause : Cause} {n : Nat} :
    ¬Reads ts rest x (.error (.malformed cause n)) := by
  rintro (h | ⟨us, -, -, h⟩) <;> cases h

/-- What is read of the last of the tokens is part of what is read of all. -/
theorem Reads.map {o : Except Stop (α × List Token)} (h : Reads ts rest x o)
    (hlen : ts.length ≤ us.length) (f : α → β) :
    Reads us rest (f x) (o.map fun p => (f p.1, p.2)) := by
  rcases h with rfl | ⟨vs, hvs, hlt, rfl⟩
  · exact Or.inl rfl
  · exact Or.inr ⟨vs, hvs, Nat.lt_of_lt_of_le hlt hlen, rfl⟩

end Reads

theorem items_close {fuel depth n : Nat} {ts : List Token} :
    items (fuel + 1) depth (⟨.closeList, n⟩ :: ts) = .error (.malformed .expectingValue n) := by
  cases fuel <;> rfl

theorem members_close {fuel depth n : Nat} {ts : List Token} :
    members (fuel + 1) depth (⟨.closeRecord, n⟩ :: ts) = .error (.malformed .expectingName n) := rfl

mutual

/-- **The reader reads every value**, if the levels suffice. -/
theorem value_complete : ∀ {cs rest : List Char} {d : Datum}, Value cs d rest → EndsNumber rest →
    ∀ (fuel depth : Nat) (ts : List Token), Follows ts cs → 2 * ts.length ≤ fuel →
    Reads ts rest d (value fuel depth ts)
  | _, _, _, .atom h rest, hr, fuel, depth, ts, hts, hf => by
      obtain ⟨n, us, rfl, hus⟩ := hts.of_lexemes (lexemes_atom h hr)
      obtain _ | fuel := fuel
      · cases hf
      · exact Or.inr ⟨us, hus, Nat.lt_succ_self _, rfl⟩
  | _, _, _, .text h, _, fuel, depth, ts, hts, hf => by
      obtain ⟨n, us, rfl, hus⟩ := hts.of_lexemes (lexemes_inside h)
      obtain _ | fuel := fuel
      · cases hf
      · exact Or.inr ⟨us, hus, Nat.lt_succ_self _, rfl⟩
  | _, rest, _, .noItems h, _, fuel, depth, ts, hts, hf => by
      obtain ⟨n, us, rfl, hus⟩ := hts.of_lexemes (lexemes_openList _)
      obtain ⟨m, vs, rfl, hvs⟩ := (hus.of_blanks h).of_lexemes (lexemes_closeList rest)
      obtain _ | fuel := fuel
      · cases hf
      · obtain _ | depth := depth
        · exact Or.inl rfl
        · exact Or.inr ⟨vs, hvs, Nat.lt_succ_of_lt (Nat.lt_succ_self _), rfl⟩
  | _, _, _, .list h, _, fuel, depth, ts, hts, hf => by
      obtain ⟨n, us, rfl, hus⟩ := hts.of_lexemes (lexemes_openList _)
      rw [List.length_cons] at hf
      obtain _ | _ | fuel := fuel
      · omega
      · omega
      · rcases value_openList_cases (fuel + 1) depth n us with
          ⟨-, hdeep⟩ | ⟨m, vs, rfl, -⟩ | ⟨below, -, hitems⟩
        · exact Or.inl hdeep
        · -- items do not start with a closing bracket
          have hreads := items_complete h (fuel + 1) depth _ hus (by omega)
          rw [items_close] at hreads
          exact absurd hreads not_reads_malformed
        · rw [hitems]
          exact (items_complete h (fuel + 1) below us hus (by omega)).map (Nat.le_succ _) _
  | _, rest, _, .noMembers h, _, fuel, depth, ts, hts, hf => by
      obtain ⟨n, us, rfl, hus⟩ := hts.of_lexemes (lexemes_openRecord _)
      obtain ⟨m, vs, rfl, hvs⟩ := (hus.of_blanks h).of_lexemes (lexemes_closeRecord rest)
      obtain _ | fuel := fuel
      · cases hf
      · obtain _ | depth := depth
        · exact Or.inl rfl
        · exact Or.inr ⟨vs, hvs, Nat.lt_succ_of_lt (Nat.lt_succ_self _), rfl⟩
  | _, _, _, .record h, _, fuel, depth, ts, hts, hf => by
      obtain ⟨n, us, rfl, hus⟩ := hts.of_lexemes (lexemes_openRecord _)
      rw [List.length_cons] at hf
      obtain _ | _ | fuel := fuel
      · omega
      · omega
      · rcases value_openRecord_cases (fuel + 1) depth n us with
          ⟨-, hdeep⟩ | ⟨m, vs, rfl, -⟩ | ⟨below, -, hmembers⟩
        · exact Or.inl hdeep
        · have hreads := members_complete h (fuel + 1) depth _ hus (by omega)
          rw [members_close] at hreads
          exact absurd hreads not_reads_malformed
        · rw [hmembers]
          exact (members_complete h (fuel + 1) below us hus (by omega)).map (Nat.le_succ _)
            fun es => Datum.record (Datum.ofEntries es)

theorem items_complete : ∀ {cs rest : List Char} {xs : List Datum}, Items cs xs rest →
    ∀ (fuel depth : Nat) (ts : List Token), Follows ts cs → 2 * ts.length + 1 ≤ fuel →
    Reads ts rest xs (items fuel depth ts)
  | _, rest, _, .last ha hx hb, fuel, depth, ts, hts, hf => by
      obtain _ | fuel := fuel
      · omega
      · rcases value_complete hx (hb.endsNumber (endsNumber_closeList rest)) fuel depth ts
          (hts.of_blanks ha) (by omega) with hdeep | ⟨us, hus, hlen, hok⟩
        · exact Or.inl (by rw [items, hdeep]; rfl)
        · obtain ⟨n, vs, rfl, hvs⟩ := (hus.of_blanks hb).of_lexemes (lexemes_closeList rest)
          exact Or.inr ⟨vs, hvs, Nat.lt_of_succ_lt hlen, items_last hok⟩
  | _, rest, _, .cons (c := c) ha hx hb hxs, fuel, depth, ts, hts, hf => by
      obtain _ | fuel := fuel
      · omega
      · rcases value_complete hx (hb.endsNumber (endsNumber_comma c)) fuel depth ts
          (hts.of_blanks ha) (by omega) with hdeep | ⟨us, hus, hlen, hok⟩
        · exact Or.inl (by rw [items, hdeep]; rfl)
        · obtain ⟨n, vs, rfl, hvs⟩ := (hus.of_blanks hb).of_lexemes (lexemes_comma c)
          rw [List.length_cons] at hlen
          rw [items_comma hok]
          exact (items_complete hxs fuel depth vs hvs (by omega)).map (by omega) _

theorem members_complete : ∀ {cs rest : List Char} {es : List (Datum × Datum)}, Members cs es rest →
    ∀ (fuel depth : Nat) (ts : List Token), Follows ts cs → 2 * ts.length + 1 ≤ fuel →
    Reads ts rest es (members fuel depth ts)
  | _, rest, _, .last (.mk ha hk hb hc hv) hend, fuel, depth, ts, hts, hf => by
      obtain ⟨n, m, us, rfl, hus⟩ := hts.of_key ha hk hb
      simp only [List.length_cons] at hf
      obtain _ | fuel := fuel
      · omega
      · rcases value_complete hv (hend.endsNumber (endsNumber_closeRecord rest)) fuel depth us
          (hus.of_blanks hc) (by omega) with hdeep | ⟨vs, hvs, hlen, hok⟩
        · exact Or.inl (by rw [members, hdeep]; rfl)
        · obtain ⟨k, ws, rfl, hws⟩ := (hvs.of_blanks hend).of_lexemes (lexemes_closeRecord rest)
          refine Or.inr ⟨ws, hws, ?_, by rw [members, hok]; rfl⟩
          simp only [List.length_cons] at hlen ⊢
          omega
  | _, _, _, .cons (b := b) (.mk ha hk hb hc hv) hcomma hes, fuel, depth, ts, hts, hf => by
      obtain ⟨n, m, us, rfl, hus⟩ := hts.of_key ha hk hb
      simp only [List.length_cons] at hf
      obtain _ | fuel := fuel
      · omega
      · rcases value_complete hv (hcomma.endsNumber (endsNumber_comma b)) fuel depth us
          (hus.of_blanks hc) (by omega) with hdeep | ⟨vs, hvs, hlen, hok⟩
        · exact Or.inl (by rw [members, hdeep]; rfl)
        · obtain ⟨k, ws, rfl, hws⟩ := (hvs.of_blanks hcomma).of_lexemes (lexemes_comma b)
          rw [List.length_cons] at hlen
          rw [members_comma hok]
          refine (members_complete hes fuel depth ws hws (by omega)).map ?_ _
          simp only [List.length_cons]
          omega

end

/-! ## Documents -/

section Documents

variable {cs : List Char} {d : Datum}

theorem follows_tokens (cs : List Char) : Follows (tokens cs) cs := rfl

theorem document_cases (ts : List Token) :
    (∃ e, value (2 * ts.length + 2) maxDepth ts = .error e ∧ document ts = .error e) ∨
    (∃ d, value (2 * ts.length + 2) maxDepth ts = .ok (d, []) ∧ document ts = .ok d) ∨
    ∃ n, document ts = .error (.malformed .extraData n) := by
  rw [document]
  rcases value (2 * ts.length + 2) maxDepth ts with e | ⟨d, _ | ⟨t, us⟩⟩
  · exact Or.inl ⟨e, rfl, rfl⟩
  · exact Or.inr (Or.inl ⟨d, rfl, rfl⟩)
  · exact Or.inr (Or.inr ⟨t.rest, rfl⟩)

theorem document_of_read? (h : read? cs = .ok d) : Document cs d := by
  rw [read?] at h
  rcases document_cases (tokens cs) with ⟨e, -, herr⟩ | ⟨d', hvalue, hok⟩ | ⟨n, herr⟩
  · rw [herr] at h
    cases h
  · rw [hok] at h
    cases h
    obtain ⟨a, rest, ha, hd, hrest⟩ := value_sound _ _ _ _ _ _ (follows_tokens cs) hvalue
    exact .mk ha hd (blanks_of_lexemes_nil hrest.symm)
  · rw [herr] at h
    cases h

theorem read?_of_document (h : Document cs d) : read? cs = .ok d ∨ read? cs = .error .tooDeep := by
  obtain ⟨ha, hd, hb⟩ := h
  rcases value_complete hd (hb.endsNumber nofun) (2 * (tokens cs).length + 2) maxDepth (tokens cs)
    ((follows_tokens cs).of_blanks ha) (by omega) with hdeep | ⟨us, hus, -, hok⟩
  · refine Or.inr ?_
    rw [read?, document, hdeep]
    rfl
  · obtain rfl := List.map_eq_nil_iff.mp (hus.of_blanks hb)
    refine Or.inl ?_
    rw [read?, document, hok]
    rfl

theorem tooDeep_lt_nesting (h : read? cs = .error .tooDeep) : maxDepth < nesting cs := by
  rw [read?] at h
  rcases document_cases (tokens cs) with ⟨e, hvalue, herr⟩ | ⟨d', hvalue, hok⟩ | ⟨n, herr⟩
  · rw [herr] at h
    cases e with
    | tooDeep =>
        have hdeep := value_tooDeep _ _ _ _ (follows_tokens cs) hvalue 0
        rwa [Nat.zero_add] at hdeep
    | malformed cause n => cases h
    | tooManyDigits => cases h
  · rw [hok] at h
    cases h
  · rw [herr] at h
    cases h

/-- No document starts with a byte order mark. -/
theorem Document.head? (h : Document cs d) : cs.head? ≠ some (Char.ofNat 0xFEFF) := by
  intro hmark
  rcases cs with _ | ⟨c, cs⟩
  · cases hmark
  · cases hmark
    have hstray : read? (Char.ofNat 0xFEFF :: cs)
        = .error (.at (Char.ofNat 0xFEFF :: cs) .expectingValue (cs.length + 1)) := rfl
    rcases read?_of_document h with hread | hread <;> rw [hstray] at hread <;> cases hread

theorem parse?_ne_tooDeep (hn : nesting cs ≤ maxDepth) : parse? cs ≠ .error .tooDeep := by
  rw [parse?]
  split
  · exact nofun
  · exact fun h => absurd (tooDeep_lt_nesting h) (Nat.not_lt.mpr hn)

/-- **The reader accepts the documents**, and reads them as what they denote, among the texts that
are not nested too deeply. -/
theorem parse?_eq_ok_iff (hn : nesting cs ≤ maxDepth) : parse? cs = .ok d ↔ Document cs d := by
  constructor
  · intro h
    rw [parse?] at h
    split at h
    · cases h
    · exact document_of_read? h
  · intro h
    rw [parse?, if_neg h.head?]
    rcases read?_of_document h with hok | hdeep
    · exact hok
    · exact absurd (tooDeep_lt_nesting hdeep) (Nat.not_lt.mpr hn)

end Documents

end Perception.Json
