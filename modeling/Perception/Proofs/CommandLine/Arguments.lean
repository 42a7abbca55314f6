import Perception.CommandLine.Arguments
import Perception.Proofs.Datum

set_option autoImplicit false

/-! # What the arguments of a command can be

Every value that a command line gives is one that a switch of its key can have: its default, what
the switch reads from some text, or the empty list that the mark for plain words stands for
(`CommandLine.gives_of_arguments`). The plain words are a list of texts
(`CommandLine.plain_of_arguments`). Both follow from what each way of taking words keeps
(`CommandLine.Kept`).
-/

namespace Perception.CommandLine

variable {g : Grammar} {f f' : Findings} {s : Switch} {key name text : String} {d : Datum}
  {given : Option String} {rest rest' words : List Word}

def Switch.Gives (s : Switch) (key : String) (d : Datum) : Prop :=
  ∃ read, s.effect = .store key read ∧
    (d = s.default ∨ d = .list [] ∨ ∃ text, read text = .ok d)

/-- The values under all keys but that of the plain words are ones that switches give. -/
def Given (g : Grammar) (es : List (Datum × Datum)) : Prop :=
  ∀ key d, Datum.lookup es key = some d →
    (∃ s ∈ g.switches, s.Gives key d) ∨ g.plainKey = some key

theorem Given.insert {es : List (Datum × Datum)} (h : Given g es)
    (hd : (∃ s ∈ g.switches, s.Gives key d) ∨ g.plainKey = some key) :
    Given g (Datum.insert es (.text key) d) := by
  intro k v hv
  rw [Datum.lookup_insert] at hv
  split at hv
  · next hk =>
      cases hv
      exact hk ▸ hd
  · exact h k v hv

/-! ## Words -/

/-- A word that is a switch is one of the grammar. -/
def Word.Of (g : Grammar) : Word → Prop
  | .switch _ (some (s, _, _)) => s ∈ g.switches
  | _ => True

theorem mem_of_find? (h : g.find? name = some s) : s ∈ g.switches :=
  List.mem_of_find?_eq_some h

theorem mem_of_mem_meanings {word : List Char} {found : Switch × String × Option String}
    (h : found ∈ g.meanings word) : found.1 ∈ g.switches := by
  have hnames : ∀ x ∈ g.names, x.1 ∈ g.switches := by
    intro x hx
    obtain ⟨s, hs, hx⟩ := List.mem_flatMap.mp hx
    obtain ⟨n, -, rfl⟩ := List.mem_map.mp hx
    exact hs
  unfold Grammar.meanings at h
  split at h
  · rcases hcut : Grammar.cutValue _ with ⟨start, value⟩
    rw [hcut] at h
    obtain ⟨x, hx, hfound⟩ := List.mem_filterMap.mp h
    dsimp only at hfound
    split at hfound
    · cases hfound
      exact hnames x hx
    · cases hfound
  · obtain ⟨x, hx, hfound⟩ := List.mem_filterMap.mp h
    dsimp only at hfound
    split at hfound
    · cases hfound
      exact hnames x hx
    · split at hfound
      · cases hfound
        exact hnames x hx
      · cases hfound

theorem of_ofString {w : Word} (h : Word.ofString g text = .ok w) : w.Of g := by
  unfold Word.ofString at h
  dsimp only at h
  split at h
  · cases h
    trivial
  · split at h
    · next hs =>
        cases h
        exact mem_of_find? hs
    · split at h
      · next hs =>
          cases h
          exact mem_of_find? hs
      · split at h
        · cases h
          trivial
        · split at h
          · next found hfound =>
              cases h
              exact mem_of_mem_meanings (hfound ▸ List.mem_singleton_self found)
          · split at h
            · cases h
              trivial
            · cases h
              trivial
          · cases h

theorem of_ofStrings {texts : List String} (h : Word.ofStrings g texts = .ok words) :
    ∀ w ∈ words, w.Of g := by
  induction texts generalizing words with
  | nil =>
      cases h
      exact fun w hw => absurd hw List.not_mem_nil
  | cons text texts ih =>
      unfold Word.ofStrings at h
      split at h
      · cases h
        intro w hw
        rcases List.mem_cons.mp hw with rfl | hw
        · trivial
        · obtain ⟨t, -, rfl⟩ := List.mem_map.mp hw
          trivial
      · cases hword : Word.ofString g text with
        | error e =>
            rw [hword] at h
            cases h
        | ok word =>
            cases hrest : Word.ofStrings g texts with
            | error e =>
                rw [hword, hrest] at h
                cases h
            | ok others =>
                rw [hword, hrest] at h
                cases h
                intro w hw
                rcases List.mem_cons.mp hw with rfl | hw
                · exact of_ofString hword
                · exact ih hrest w hw

/-! ## Findings -/

theorem gives_of_value {read : String → Except String Datum} (hs : s.effect = .store key read)
    (h : s.value read text = .ok d) : s.Gives key d := by
  refine ⟨read, hs, Or.inr ?_⟩
  unfold Switch.value at h
  split at h
  · cases h
    exact Or.inl rfl
  · split at h
    · next hread =>
        cases h
        exact Or.inr ⟨text, hread⟩
    · cases h

/-- Storing the value of a switch. -/
theorem store_ok {read : String → Except String Datum} (heffect : s.effect = .store key read)
    (hstore : (do return (f.store s key (← s.value read text), rest) :
      Except Stop (Findings × List Word)) = .ok (f', rest')) :
    ∃ d, s.Gives key d ∧ f' = f.store s key d ∧ rest' = rest := by
  cases hv : s.value read text with
  | error e =>
      rw [hv] at hstore
      cases hstore
  | ok d =>
      rw [hv] at hstore
      cases hstore
      exact ⟨d, gives_of_value heffect hv, rfl, rfl⟩

/-- Taking a switch stores a value that it gives, or nothing, and takes words away. -/
theorem takeSwitch_ok (htake : takeSwitch g f s name given rest = .ok (f', rest')) :
    (f' = f ∨ ∃ key d, s.Gives key d ∧ f' = f.store s key d) ∧ ∀ w ∈ rest', w ∈ rest := by
  unfold takeSwitch at htake
  cases heffect : s.effect with
  | help =>
      rw [heffect] at htake
      cases given with
      | none => cases htake
      | some v =>
          dsimp only at htake
          cases hhelp : helpWith g s name.toList v.toList with
          | error e =>
              rw [hhelp] at htake
              cases htake
          | ok u =>
              rw [hhelp] at htake
              cases htake
              exact ⟨Or.inl rfl, fun w hw => hw⟩
  | store key read =>
      rw [heffect] at htake
      cases given with
      | some v =>
          obtain ⟨d, hd, rfl, rfl⟩ := store_ok heffect htake
          exact ⟨Or.inr ⟨key, d, hd, rfl⟩, fun w hw => hw⟩
      | none =>
          -- the value is the word that follows, which must be plain
          cases rest with
          | nil => cases htake
          | cons w rest =>
              cases w with
              | plain v =>
                  obtain ⟨d, hd, rfl, rfl⟩ := store_ok heffect htake
                  exact ⟨Or.inr ⟨key, d, hd, rfl⟩, fun w hw => List.mem_cons_of_mem _ hw⟩
              | separator => cases htake
              | switch text found => cases htake

/-- What can happen to findings when words are taken: values of switches are stored, words are left
over, and texts are listed under the key of the plain words. -/
structure Kept (g : Grammar) (P : Findings → Prop) : Prop where
  store : ∀ {f s key d}, P f → s ∈ g.switches → s.Gives key d → P (f.store s key d)
  leave : ∀ {f} (texts : List String), P f → P (f.leave texts)
  list : ∀ {f key} (texts : List String), P f → g.plainKey = some key → P { f with
    plainTaken := true, values := Datum.insert f.values (.text key) (.list (texts.map .text)) }

theorem Kept.takePlain {P : Findings → Prop} (hP : Kept g P) (h : P f) (front : List Word) :
    P (takePlain g f front) := by
  unfold CommandLine.takePlain
  dsimp only
  split
  · next key hkey =>
      split
      · exact hP.list _ h hkey
      · exact hP.leave _ h
  · exact hP.leave _ h

/-- **What each way of taking words keeps** is kept where all of them are taken. -/
theorem Kept.takeAll {P : Findings → Prop} (hP : Kept g P) {fuel : Nat} (h : P f)
    (hwords : ∀ w ∈ words, w.Of g) (htake : takeAll g fuel f words = .ok f') : P f' := by
  induction fuel generalizing f words with
  | zero =>
      cases words with
      | nil =>
          cases htake
          exact h
      | cons w rest =>
          cases htake
          exact h
  | succ fuel ih =>
      -- plain words in front are taken together
      have hplain : ∀ front,
          CommandLine.takeAll g fuel (CommandLine.takePlain g f front) (words.drop front.length)
            = .ok f' → P f' :=
        fun front => ih (hP.takePlain h front) fun w hw => hwords w (List.mem_of_mem_drop hw)
      cases words with
      | nil =>
          cases htake
          exact h
      | cons w rest =>
          have hrest : ∀ w ∈ rest, w.Of g := fun w hw => hwords w (List.mem_cons_of_mem _ hw)
          cases w with
          | plain text => exact hplain _ htake
          | separator => exact hplain _ htake
          | switch text found =>
              cases found with
              | none =>
                  rw [CommandLine.takeAll] at htake
                  exact ih (hP.leave [text] h) hrest htake
              | some found =>
                  rcases found with ⟨s, name, given⟩
                  have hs : s ∈ g.switches := hwords _ List.mem_cons_self
                  rw [CommandLine.takeAll] at htake
                  cases hswitch : takeSwitch g f s name given rest with
                  | error e =>
                      rw [hswitch] at htake
                      cases htake
                  | ok taken =>
                      rcases taken with ⟨f'', rest''⟩
                      rw [hswitch] at htake
                      obtain ⟨hfound, hsub⟩ := takeSwitch_ok hswitch
                      have hkept : P f'' := by
                        rcases hfound with rfl | ⟨key, d, hd, rfl⟩
                        · exact h
                        · exact hP.store h hs hd
                      exact ih hkept (fun w hw => hrest w (hsub w hw)) htake

/-- Filling in the defaults keeps the values such as switches give. -/
theorem given_values (h : Given g f.values) : Given g (values g f).entries := by
  refine List.foldlRecOn g.switches _ h fun es hes s hs => ?_
  cases heffect : s.effect with
  | help => exact hes
  | store key read =>
      dsimp only
      split
      · exact hes
      · exact hes.insert (Or.inl ⟨s, hs, read, heffect, Or.inl rfl⟩)

/-- Filling in the defaults changes no value that is there. -/
theorem lookup_values (h : Datum.lookup f.values key = some d) :
    (values g f).find? key = some d := by
  refine List.foldlRecOn (motive := fun es => Datum.lookup es key = some d) g.switches _ h
    fun es hes s hs => ?_
  cases heffect : s.effect with
  | help => exact hes
  | store k read =>
      dsimp only
      split
      · exact hes
      · next hnone =>
          rw [Datum.lookup_insert]
          split
          · next hk =>
              rw [hk, hes] at hnone
              exact absurd rfl hnone
          · exact hes

/-- **Arguments that are accepted** come from words that were all taken, with their defaults. -/
theorem exists_of_arguments {texts : List String} {args : Datum}
    (h : arguments g texts = .ok args) :
    ∃ words f fuel, (∀ w ∈ words, w.Of g) ∧ takeAll g fuel .empty words = .ok f ∧
      missing g f = [] ∧ args = values g f := by
  unfold arguments at h
  cases hwords : Word.ofStrings g texts with
  | error e =>
      rw [hwords] at h
      cases h
  | ok words =>
      rw [hwords] at h
      cases htake : takeAll g words.length .empty words with
      | error e =>
          dsimp only [bind, Except.bind] at h
          rw [htake] at h
          cases h
      | ok f =>
          refine ⟨words, f, _, of_ofStrings hwords, htake, ?_⟩
          dsimp only [bind, Except.bind] at h
          rw [htake] at h
          dsimp only at h
          split at h
          · next hmissing =>
              split at h
              · cases h
                exact ⟨hmissing, rfl⟩
              · cases h
          · cases h

/-- **What the arguments can be**: the value of a key is one that a switch gives, if no plain words
are taken. -/
theorem gives_of_arguments {texts : List String} {args : Datum} (hplain : g.plainKey = none)
    (h : arguments g texts = .ok args) (hd : args.find? key = some d) :
    ∃ s ∈ g.switches, s.Gives key d := by
  obtain ⟨words, f, fuel, hwords, htake, -, rfl⟩ := exists_of_arguments h
  have hkept : Kept g fun f => Given g f.values :=
    ⟨fun hf hs hd => hf.insert (Or.inl ⟨_, hs, hd⟩), fun _ hf => hf,
      fun _ hf hkey => hf.insert (Or.inr hkey)⟩
  have hempty : Given g Findings.empty.values := fun key d hd => nomatch hd
  rcases given_values (hkept.takeAll hempty hwords htake) key d hd with hs | hkey
  · exact hs
  · rw [hplain] at hkey
    cases hkey

/-- **The plain words** are a list of texts, if no switch stores anything under their key. -/
theorem plain_of_arguments {texts : List String} {args : Datum} (hkey : g.plainKey = some key)
    (hs : ∀ s ∈ g.switches, ∀ d, ¬s.Gives key d) (h : arguments g texts = .ok args) :
    ∃ plain : List String, args.find? key = some (.list (plain.map .text)) := by
  obtain ⟨words, f, fuel, hwords, htake, hmissing, rfl⟩ := exists_of_arguments h
  have hkept : Kept g fun f => f.plainTaken = true →
      ∃ plain : List String, Datum.lookup f.values key = some (.list (plain.map .text)) := by
    refine ⟨fun {f s k d} hf hmem hd htaken => ?_, fun _ hf => hf, fun {f k} plain _ hk _ => ?_⟩
    · obtain ⟨plain, hlist⟩ := hf htaken
      have hother : k ≠ key := by
        rintro rfl
        exact hs s hmem d hd
      exact ⟨plain, (Datum.lookup_insert f.values k key d).trans ((if_neg hother).trans hlist)⟩
    · obtain rfl := Option.some.inj (hkey.symm.trans hk)
      exact ⟨plain, (Datum.lookup_insert ..).trans (if_pos rfl)⟩
  have htaken : f.plainTaken = true := by
    cases hnot : f.plainTaken with
    | true => rfl
    | false =>
        -- the key would be among what is missing
        rw [missing, hnot, hkey] at hmissing
        exact absurd (List.append_eq_nil_iff.mp hmissing).2 (List.cons_ne_nil _ _)
  obtain ⟨plain, hlist⟩ := hkept.takeAll (f := .empty) nofun hwords htake htaken
  exact ⟨plain, lookup_values hlist⟩

end Perception.CommandLine
