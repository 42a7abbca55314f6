import Perception.Proofs.Json.RoundTrip

set_option autoImplicit false

/-! # Reading what was spread over lines

A value that is spread over lines has the lexemes that it has on one line, since the line ends and
the blanks behind them stand between tokens (`cut_spreadChars`). So plain data come back from that
form too (`read?_spreadChars`).
-/

namespace Perception.Json

theorem isSpace_lineStart (level : Nat) : ∀ c ∈ lineStart level, isSpace c = true := by
  intro c hc
  rcases List.mem_cons.mp hc with rfl | hc
  · rfl
  · rw [List.eq_of_mem_replicate hc]
    rfl

mutual

/-- **A value over several lines is cut into its lexemes.** -/
theorem cut_spreadChars : ∀ (level : Nat) (d : Datum), Plain d →
    Cut (spreadChars level d) (lexemesOf d)
  | level, .list (x :: xs), hd => by
      have hcut := cut_list (isSpace_lineStart (level + 1)) (isSpace_lineStart level)
        (cut_join (isSpace_lineStart (level + 1)) (cut_spreadItems (level + 1) (x :: xs) hd))
      rw [lexemesOf, itemLexemes_eq]
      simpa only [spreadChars, List.cons_append, List.append_assoc] using hcut
  | level, .record (e :: es), hd => by
      have hcut := cut_record (isSpace_lineStart (level + 1)) (isSpace_lineStart level)
        (cut_join (isSpace_lineStart (level + 1)) (cut_spreadMembers (level + 1) (e :: es) hd.1))
      rw [lexemesOf, memberLexemes_eq]
      simpa only [spreadChars, List.cons_append, List.append_assoc] using hcut
  -- what has no parts stays on its line
  | _, .list [], hd => cut_compactChars (.list []) hd
  | _, .record [], hd => cut_compactChars (.record []) hd
  | _, .null, hd => cut_compactChars .null hd
  | _, .bool b, hd => cut_compactChars (.bool b) hd
  | _, .int i, hd => cut_compactChars (.int i) hd
  | _, .float x, hd => cut_compactChars (.float x) hd
  | _, .text s, hd => cut_compactChars (.text s) hd
  | _, .foreign _ _, hd => hd.elim

theorem cut_spreadItems : ∀ (level : Nat) (xs : List Datum), PlainItems xs →
    List.Forall₂ Cut (spreadItems level xs) (xs.map lexemesOf)
  | _, [], _ => .nil
  | level, x :: xs, hd => .cons (cut_spreadChars level x hd.1) (cut_spreadItems level xs hd.2)

theorem cut_spreadMembers : ∀ (level : Nat) (es : List (Datum × Datum)), PlainMembers es →
    List.Forall₂ Cut (spreadMembers level es) (es.map lexemesOfMember)
  | _, [], _ => .nil
  | level, (_, v) :: es, hd =>
      .cons (cut_member hd.1 (cut_spreadChars level v hd.2.1)) (cut_spreadMembers level es hd.2.2)

end

/-- **Reading what was spread over lines.** Plain data come back, spaces behind them or not. -/
theorem read?_spreadChars {d : Datum} {spaces : List Char} (level : Nat) (hd : Plain d)
    (hdepth : depthOf d ≤ maxDepth) (hs : ∀ c ∈ spaces, isSpace c = true) :
    read? (spreadChars level d ++ spaces) = .ok d :=
  read?_of_cut hd hdepth hs (cut_spreadChars level d hd)

end Perception.Json
