import Perception.Json.Reader
import Perception.Proofs.Datum

set_option autoImplicit false

/-! # The grammar of JSON

Which texts are documents, and what they denote, without a reader. A rule `Value cs d rest` says that
the characters `cs` start with a value that denotes `d`, and that `rest` is what follows it; so it is
for the parts of a value (`Blanks`, `Inside`, `Items`, `Members`). The grammar is that of the standard
with the names for what is no number and for infinity, and a whole number has at most as many digits
as are read (`Numeral`). A record denotes its members in order, the last of each key winning.

How deep a text is nested shows from its brackets alone (`nesting`), be it a document or not, and
what stands between the brackets of a value does not go below its own level (`Value.nesting_le`).
-/

namespace Perception.Json

/-! ## Blanks and texts -/

inductive Blanks : List Char → List Char → Prop
  | nil (cs : List Char) : Blanks cs cs
  | cons {c : Char} {cs rest : List Char} (hc : isSpace c = true) (h : Blanks cs rest) :
      Blanks (c :: cs) rest

/-- The inside of a text with its closing quote, and the code points in it: characters that stand for
themselves, escapes of one letter and escapes of four hexadecimal digits. -/
inductive Inside : List Char → List Nat → List Char → Prop
  | close (rest : List Char) : Inside ('"' :: rest) [] rest
  | plain {c : Char} {cs rest : List Char} {ns : List Nat} (hquote : c ≠ '"') (hslash : c ≠ '\\')
      (hc : 0x20 ≤ c.toNat) (h : Inside cs ns rest) : Inside (c :: cs) (c.toNat :: ns) rest
  | letter {c : Char} {n : Nat} {cs rest : List Char} {ns : List Nat} (hc : escaped? c = some n)
      (h : Inside cs ns rest) : Inside ('\\' :: c :: cs) (n :: ns) rest
  | digits {a b c d : Char} {n : Nat} {cs rest : List Char} {ns : List Nat}
      (hn : hex4? a b c d = some n) (h : Inside cs ns rest) :
      Inside ('\\' :: 'u' :: a :: b :: c :: d :: cs) (n :: ns) rest

/-! ## Numbers -/

/-- The whole part of a number: a zero alone, or digits that start with none. -/
inductive Whole : List Char → Prop
  | zero : Whole ['0']
  | digits {c : Char} {ds : List Char} (hc : c ≠ '0') (hd : ∀ x ∈ c :: ds, isDigit x = true) :
      Whole (c :: ds)

/-- The places of a number, which it need not have: a point and digits. -/
inductive Places : List Char → List Char → Prop
  | none : Places [] []
  | some {c : Char} {ds : List Char} (hd : ∀ x ∈ c :: ds, isDigit x = true) :
      Places ('.' :: c :: ds) (c :: ds)

/-- A sign in front of digits, and whether it is a minus. -/
inductive Sign : List Char → Bool → Prop
  | none : Sign [] false
  | plus : Sign ['+'] false
  | minus : Sign ['-'] true

/-- The exponent of a number, which it need not have. -/
inductive Exponent : List Char → Option Int → Prop
  | none : Exponent [] none
  | some {e c : Char} {sign ds : List Char} {negative : Bool} (he : e = 'e' ∨ e = 'E')
      (hs : Sign sign negative) (hd : ∀ x ∈ c :: ds, isDigit x = true) :
      Exponent (e :: (sign ++ c :: ds))
        (some (if negative then -(ofDigits (c :: ds) : Int) else ofDigits (c :: ds)))

/-- A number: one with neither places nor an exponent is a whole number, and is read if it has not
too many digits; any other is the floating-point number next to it. -/
inductive Numeral : Bool → List Char → Datum → Prop
  | whole {negative : Bool} {ds : List Char} (hw : Whole ds) (hlen : ds.length ≤ Number.maxDigits) :
      Numeral negative ds (.int (if negative then -(ofDigits ds : Int) else ofDigits ds))
  | fraction {negative : Bool} {ds p places q : List Char} {e : Option Int} (hw : Whole ds)
      (hp : Places p places) (hq : Exponent q e) (hsome : places ≠ [] ∨ e ≠ none) :
      Numeral negative (ds ++ (p ++ q))
        (.float (if negative
          then -Number.ofDecimal (ofDigits (ds ++ places)) (e.getD 0 - places.length)
          else Number.ofDecimal (ofDigits (ds ++ places)) (e.getD 0 - places.length)))

/-- A value without parts other than a text: a name, or a number, with a minus or not. -/
inductive Atom : List Char → Datum → Prop
  | name {cs : List Char} {d : Datum} (h : (cs, d) ∈ names) : Atom cs d
  | positive {cs : List Char} {d : Datum} (h : Numeral false cs d) : Atom cs d
  | negative {cs : List Char} {d : Datum} (h : Numeral true cs d) : Atom ('-' :: cs) d

/-! ## Values -/

mutual

inductive Value : List Char → Datum → List Char → Prop
  | atom {cs : List Char} {d : Datum} (h : Atom cs d) (rest : List Char) : Value (cs ++ rest) d rest
  | text {cs rest : List Char} {ns : List Nat} (h : Inside cs ns rest) :
      Value ('"' :: cs) (.text (String.ofList (joinHalves ns))) rest
  | noItems {cs rest : List Char} (h : Blanks cs (']' :: rest)) : Value ('[' :: cs) (.list []) rest
  | list {cs rest : List Char} {xs : List Datum} (h : Items cs xs rest) :
      Value ('[' :: cs) (.list xs) rest
  | noMembers {cs rest : List Char} (h : Blanks cs ('}' :: rest)) :
      Value ('{' :: cs) (.record []) rest
  | record {cs rest : List Char} {es : List (Datum × Datum)} (h : Members cs es rest) :
      Value ('{' :: cs) (.record (Datum.ofEntries es)) rest

/-- The items of a list, at least one, with its closing bracket. -/
inductive Items : List Char → List Datum → List Char → Prop
  | last {cs a b rest : List Char} {x : Datum} (ha : Blanks cs a) (hx : Value a x b)
      (hb : Blanks b (']' :: rest)) : Items cs [x] rest
  | cons {cs a b c rest : List Char} {x : Datum} {xs : List Datum} (ha : Blanks cs a)
      (hx : Value a x b) (hb : Blanks b (',' :: c)) (hxs : Items c xs rest) :
      Items cs (x :: xs) rest

inductive Member : List Char → Datum × Datum → List Char → Prop
  | mk {cs a b c d rest : List Char} {ns : List Nat} {v : Datum} (ha : Blanks cs ('"' :: a))
      (hk : Inside a ns b) (hb : Blanks b (':' :: c)) (hc : Blanks c d) (hv : Value d v rest) :
      Member cs (.text (String.ofList (joinHalves ns)), v) rest

/-- The members of a record, at least one, with its closing brace. -/
inductive Members : List Char → List (Datum × Datum) → List Char → Prop
  | last {cs a rest : List Char} {e : Datum × Datum} (he : Member cs e a)
      (ha : Blanks a ('}' :: rest)) : Members cs [e] rest
  | cons {cs a b rest : List Char} {e : Datum × Datum} {es : List (Datum × Datum)}
      (he : Member cs e a) (ha : Blanks a (',' :: b)) (hes : Members b es rest) :
      Members cs (e :: es) rest

end

/-- **A document** is a value with blanks around it. -/
inductive Document : List Char → Datum → Prop
  | mk {cs a b : List Char} {d : Datum} (ha : Blanks cs a) (hd : Value a d b) (hb : Blanks b []) :
      Document cs d

/-! ## Members of a record -/

/-- The text is a record, and this is the value of the last member with the key, whatever the other
members are. -/
inductive HasLast (key : String) (v : Datum) : List Char → Prop
  | mk {cs a b : List Char} {es : List (Datum × Datum)} (ha : Blanks cs ('{' :: a))
      (hes : Members a es b) (hb : Blanks b []) (hlast : Datum.IsLast key v es) : HasLast key v cs

theorem Members.keys : ∀ {cs rest : List Char} {es : List (Datum × Datum)}, Members cs es rest →
    ∀ e ∈ es, ∃ k, e.1 = .text k
  | _, _, _, .last (.mk ..) _ => List.forall_mem_singleton.mpr ⟨_, rfl⟩
  | _, _, _, .cons (.mk ..) _ hes => List.forall_mem_cons.mpr ⟨⟨_, rfl⟩, hes.keys⟩

/-- A value without parts has no keys. -/
theorem Atom.find? {cs : List Char} {d : Datum} (h : Atom cs d) (key : String) :
    d.find? key = none := by
  have hnumeral {negative : Bool} {cs : List Char} (h : Numeral negative cs d) :
      d.find? key = none := by
    cases h <;> rfl
  cases h with
  | name h =>
      simp only [names, List.mem_cons, List.not_mem_nil, or_false] at h
      rcases h with h | h | h | h | h | h <;> cases h <;> rfl
  | positive h => exact hnumeral h
  | negative h => exact hnumeral h

theorem Document.find?_of_hasLast {cs : List Char} {key : String} {v : Datum}
    (h : HasLast key v cs) : ∃ d, Document cs d ∧ d.find? key = some v := by
  obtain ⟨ha, hes, hb, hlast⟩ := h
  exact ⟨_, .mk ha (.record hes) hb, (Datum.lookup_ofEntries_eq_some_iff hes.keys).mpr hlast⟩

/-- **What is found under a key** of a document is the value of the last member with the key. -/
theorem Document.hasLast_of_find? {cs : List Char} {d v : Datum} {key : String}
    (h : Document cs d) (hv : d.find? key = some v) : HasLast key v cs := by
  obtain ⟨ha, hd, hb⟩ := h
  cases hd with
  | atom h _ =>
      rw [h.find?] at hv
      cases hv
  | record hes => exact .mk ha hes hb ((Datum.lookup_ofEntries_eq_some_iff hes.keys).mp hv)
  | _ => cases hv

/-! ## Nesting -/

/-- How many brackets are open at once, at most, if so many are open before; the truth value says
whether the characters start inside a text, where brackets do not count. -/
def nestingFrom : Bool → Nat → List Char → Nat
  | _, opened, [] => opened
  | true, opened, '\\' :: _ :: cs => nestingFrom true opened cs
  | true, opened, c :: cs => nestingFrom (c != '"') opened cs
  | false, opened, c :: cs =>
      if c = '[' ∨ c = '{' then nestingFrom false (opened + 1) cs
      else if c = ']' ∨ c = '}' then max opened (nestingFrom false (opened - 1) cs)
      else nestingFrom (c = '"') opened cs

/-- **How deep a text is nested.** -/
def nesting (cs : List Char) : Nat := nestingFrom false 0 cs

/-- Brackets that are open before count. -/
theorem le_nestingFrom (inText : Bool) (opened : Nat) (cs : List Char) :
    opened ≤ nestingFrom inText opened cs := by
  fun_induction nestingFrom inText opened cs with
  | case1 => exact Nat.le_refl _
  | case2 _ _ _ ih => exact ih
  | case3 _ _ _ _ ih => exact ih
  | case4 _ _ _ _ ih => omega
  | case5 _ _ _ _ _ ih => exact Nat.le_max_left _ _
  | case6 _ _ _ _ _ ih => exact ih

/-- Characters that are neither brackets nor quotes. -/
def isFlat (c : Char) : Bool := c ≠ '[' && c ≠ ']' && c ≠ '{' && c ≠ '}' && c ≠ '"'

theorem nestingFrom_flat {s : List Char} (hs : ∀ c ∈ s, isFlat c = true) (opened : Nat)
    (rest : List Char) : nestingFrom false opened (s ++ rest) = nestingFrom false opened rest := by
  induction s with
  | nil => rfl
  | cons c s ih =>
      have hc := hs c List.mem_cons_self
      simp only [isFlat, Bool.and_eq_true, decide_eq_true_eq] at hc
      obtain ⟨⟨⟨⟨hopen, hclose⟩, hbrace⟩, hend⟩, hquote⟩ := hc
      have hnot : decide (c = '"') = false := decide_eq_false hquote
      rw [List.cons_append, nestingFrom, if_neg (not_or_intro hopen hbrace),
        if_neg (not_or_intro hclose hend), hnot, ih fun x hx => hs x (List.mem_cons_of_mem _ hx)]

theorem isFlat_of_isDigit {c : Char} (hc : isDigit c = true) : isFlat c = true := by
  have hne {x : Char} (hx : isDigit x = false) : c ≠ x := by
    rintro rfl
    rw [hc] at hx
    cases hx
  simp only [isFlat, Bool.and_eq_true, decide_eq_true_eq]
  exact ⟨⟨⟨⟨hne rfl, hne rfl⟩, hne rfl⟩, hne rfl⟩, hne rfl⟩

theorem isFlat_of_isSpace {c : Char} (hc : isSpace c = true) : isFlat c = true := by
  simp only [isSpace, Bool.or_eq_true, decide_eq_true_eq] at hc
  rcases hc with ((rfl | rfl) | rfl) | rfl <;> rfl

theorem Whole.isDigit {ds : List Char} (h : Whole ds) : ∀ c ∈ ds, isDigit c = true := by
  cases h with
  | zero => exact List.forall_mem_singleton.mpr rfl
  | digits hc hd => exact hd

theorem Places.flat {p places : List Char} (h : Places p places) : ∀ c ∈ p, isFlat c = true := by
  cases h with
  | none => exact nofun
  | some hd => exact List.forall_mem_cons.mpr ⟨rfl, fun c hc => isFlat_of_isDigit (hd c hc)⟩

theorem Sign.flat {sign : List Char} {negative : Bool} (h : Sign sign negative) :
    ∀ c ∈ sign, isFlat c = true := by
  cases h with
  | none => exact nofun
  | plus => exact List.forall_mem_singleton.mpr rfl
  | minus => exact List.forall_mem_singleton.mpr rfl

theorem Exponent.flat {q : List Char} {e : Option Int} (h : Exponent q e) :
    ∀ c ∈ q, isFlat c = true := by
  cases h with
  | none => exact nofun
  | some he hs hd =>
      refine List.forall_mem_cons.mpr ⟨?_, List.forall_mem_append.mpr
        ⟨hs.flat, fun c hc => isFlat_of_isDigit (hd c hc)⟩⟩
      rcases he with rfl | rfl <;> rfl

theorem Numeral.flat {negative : Bool} {cs : List Char} {d : Datum} (h : Numeral negative cs d) :
    ∀ c ∈ cs, isFlat c = true := by
  cases h with
  | whole hw _ => exact fun c hc => isFlat_of_isDigit (hw.isDigit c hc)
  | fraction hw hp hq _ =>
      exact List.forall_mem_append.mpr ⟨fun c hc => isFlat_of_isDigit (hw.isDigit c hc),
        List.forall_mem_append.mpr ⟨hp.flat, hq.flat⟩⟩

theorem Atom.flat {cs : List Char} {d : Datum} (h : Atom cs d) : ∀ c ∈ cs, isFlat c = true := by
  cases h with
  | name h =>
      have hall : ∀ e ∈ names, ∀ c ∈ e.1, isFlat c = true := by
        intro e he
        simp only [names, List.mem_cons, List.not_mem_nil, or_false] at he
        rcases he with rfl | rfl | rfl | rfl | rfl | rfl <;> exact List.all_eq_true.mp rfl
      exact hall _ h
  | positive h => exact h.flat
  | negative h => exact List.forall_mem_cons.mpr ⟨rfl, h.flat⟩

theorem Blanks.nesting_eq {cs rest : List Char} (h : Blanks cs rest) (opened : Nat) :
    nestingFrom false opened cs = nestingFrom false opened rest := by
  induction h with
  | nil cs => rfl
  | @cons c cs rest hc _ ih =>
      have hflat := nestingFrom_flat
        (List.forall_mem_singleton.mpr (isFlat_of_isSpace hc)) opened cs
      rw [← ih]
      exact hflat

/-- No hexadecimal digit is a quote or a backslash. -/
theorem hexValue?_sign {c : Char} {n : Nat} (h : Bytes.hexValue? c = some n) :
    c ≠ '"' ∧ c ≠ '\\' := by
  constructor
  · rintro rfl
    cases h
  · rintro rfl
    cases h

theorem hex4?_some {a b c d : Char} {n : Nat} (h : hex4? a b c d = some n) :
    ∀ x ∈ [a, b, c, d], x ≠ '"' ∧ x ≠ '\\' := by
  unfold hex4? at h
  simp only [Option.bind_eq_bind, Option.bind_eq_some_iff] at h
  obtain ⟨_, ha, _, hb, _, hc, _, hd, -⟩ := h
  simp only [List.forall_mem_cons, List.not_mem_nil, false_implies, implies_true, and_true]
  exact ⟨hexValue?_sign ha, hexValue?_sign hb, hexValue?_sign hc, hexValue?_sign hd⟩

/-- A character that stands for itself in a text. -/
theorem nestingFrom_plain {c : Char} (hc : c ≠ '"' ∧ c ≠ '\\') (opened : Nat) (cs : List Char) :
    nestingFrom true opened (c :: cs) = nestingFrom true opened cs := by
  rw [nestingFrom.eq_3 _ _ _ fun _ _ h => absurd h hc.2, bne_iff_ne.mpr hc.1]

theorem Inside.nesting_eq {cs rest : List Char} {ns : List Nat} (h : Inside cs ns rest)
    (opened : Nat) : nestingFrom true opened cs = nestingFrom false opened rest := by
  induction h with
  | close rest => rfl
  | plain hquote hslash _ _ ih => rw [nestingFrom_plain ⟨hquote, hslash⟩, ih]
  | letter _ _ ih => exact ih
  | digits hn _ ih =>
      have hd := hex4?_some hn
      simp only [List.forall_mem_cons] at hd
      obtain ⟨ha, hb, hc, hd, -⟩ := hd
      rw [nestingFrom, nestingFrom_plain ha, nestingFrom_plain hb, nestingFrom_plain hc,
        nestingFrom_plain hd, ih]

/-- Keys do not count. -/
theorem nesting_of_key {cs a b c : List Char} {ns : List Nat} (ha : Blanks cs ('"' :: a))
    (hk : Inside a ns b) (hb : Blanks b (':' :: c)) (opened : Nat) :
    nestingFrom false opened cs = nestingFrom false opened c := by
  have hkey : nestingFrom false opened ('"' :: a) = nestingFrom false opened b :=
    hk.nesting_eq opened
  rw [ha.nesting_eq, hkey, hb.nesting_eq]
  rfl

theorem nestingFrom_openList (opened : Nat) (cs : List Char) :
    nestingFrom false opened ('[' :: cs) = nestingFrom false (opened + 1) cs := rfl

theorem nestingFrom_openRecord (opened : Nat) (cs : List Char) :
    nestingFrom false opened ('{' :: cs) = nestingFrom false (opened + 1) cs := rfl

/-- What a closing bracket leaves open counts. -/
theorem nestingFrom_close {c : Char} (hc : c = ']' ∨ c = '}') (opened : Nat) (cs : List Char) :
    nestingFrom false opened cs ≤ nestingFrom false (opened + 1) (c :: cs) := by
  have hopen : ¬(c = '[' ∨ c = '{') := by
    rcases hc with rfl | rfl <;> decide
  rw [nestingFrom, if_neg hopen, if_pos hc, Nat.add_sub_cancel]
  exact Nat.le_max_right _ _

theorem nestingFrom_comma (opened : Nat) (cs : List Char) :
    nestingFrom false opened (',' :: cs) = nestingFrom false opened cs := rfl

mutual

/-- **Values do not hide what follows them**: the text behind one is nested no deeper than the text
from its start on. -/
theorem Value.nesting_le : ∀ {cs rest : List Char} {d : Datum}, Value cs d rest → ∀ opened : Nat,
    nestingFrom false opened rest ≤ nestingFrom false opened cs
  | _, _, _, .atom h rest, opened => Nat.le_of_eq (nestingFrom_flat h.flat opened rest).symm
  | _, _, _, .text h, opened => Nat.le_of_eq (h.nesting_eq opened).symm
  | _, _, _, .noItems h, opened => by
      rw [nestingFrom_openList, h.nesting_eq]
      exact nestingFrom_close (Or.inl rfl) opened _
  | _, _, _, .list h, opened => h.nesting_le opened
  | _, _, _, .noMembers h, opened => by
      rw [nestingFrom_openRecord, h.nesting_eq]
      exact nestingFrom_close (Or.inr rfl) opened _
  | _, _, _, .record h, opened => h.nesting_le opened

theorem Items.nesting_le : ∀ {cs rest : List Char} {xs : List Datum}, Items cs xs rest →
    ∀ opened : Nat, nestingFrom false opened rest ≤ nestingFrom false (opened + 1) cs
  | _, _, _, .last ha hx hb, opened => by
      have hvalue := hx.nesting_le (opened + 1)
      rw [hb.nesting_eq] at hvalue
      rw [ha.nesting_eq]
      exact Nat.le_trans (nestingFrom_close (Or.inl rfl) opened _) hvalue
  | _, _, _, .cons ha hx hb hxs, opened => by
      have hvalue := hx.nesting_le (opened + 1)
      rw [hb.nesting_eq, nestingFrom_comma] at hvalue
      rw [ha.nesting_eq]
      exact Nat.le_trans (hxs.nesting_le opened) hvalue

theorem Member.nesting_le : ∀ {cs rest : List Char} {e : Datum × Datum}, Member cs e rest →
    ∀ opened : Nat, nestingFrom false opened rest ≤ nestingFrom false opened cs
  | _, _, _, .mk ha hk hb hc hv, opened => by
      rw [nesting_of_key ha hk hb, hc.nesting_eq]
      exact hv.nesting_le opened

theorem Members.nesting_le : ∀ {cs rest : List Char} {es : List (Datum × Datum)},
    Members cs es rest → ∀ opened : Nat,
    nestingFrom false opened rest ≤ nestingFrom false (opened + 1) cs
  | _, _, _, .last he ha, opened => by
      have hmember := he.nesting_le (opened + 1)
      rw [ha.nesting_eq] at hmember
      exact Nat.le_trans (nestingFrom_close (Or.inr rfl) opened _) hmember
  | _, _, _, .cons he ha hes, opened => by
      have hmember := he.nesting_le (opened + 1)
      rw [ha.nesting_eq, nestingFrom_comma] at hmember
      exact Nat.le_trans (hes.nesting_le opened) hmember

end

end Perception.Json
