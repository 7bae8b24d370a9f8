import TraceViewer.Proofs.Snippet.Printing

/-!
# Literals of every text

Every text has a literal between quotes of either kind, and one between the marks of a template,
made of it by escapes.  The literal is one token, and the value of this token is the text.
-/

namespace TraceViewer.Snippet

open TraceViewer.Text

/-- Characters that are read as a token, alone. -/
theorem Lexeme.IsReadFrom.tokenize {l : Lexeme} {cs : List Char} (h : l.IsReadFrom cs)
    (hslash : l.isSlash = false) (hcs : cs ≠ []) :
    ∃ l', l'.unplaced = l ∧
      tokenize (.ofList cs) = .ok [⟨l', 0⟩, ⟨.finish, byteLength cs⟩] := by
  obtain ⟨c, rest, rfl⟩ := List.exists_cons_of_ne_nil hcs
  obtain ⟨l', hl', hread⟩ := h (rest.length + 1) [] 0 [] separated_nil
    fun hl => by rw [hslash] at hl; cases hl
  refine ⟨l', hl', ?_⟩
  rw [List.append_nil, Nat.zero_add] at hread
  show tokensFrom ((String.ofList (c :: rest)).toList.length + 1) []
    ⟨0, (String.ofList (c :: rest)).toList⟩ = _
  rw [String.toList_ofList, List.length_cons, hread, tokensFrom, skipTrivia_nil]
  rfl

/-- A text as a template without substitutions. -/
def templateLiteral (s : String) : List Char :=
  '\x60' :: (s.toList.flatMap templateChar ++ ['\x60'])

theorem written_template (s : String) : (Lexeme.template [s] []).written = templateLiteral s := by
  rw [Lexeme.written, templateChars_last, templateLiteral]

/-- Only holes have places in a token. -/
theorem eq_of_unplaced_template {l : Lexeme} {parts : List String}
    (h : l.unplaced = .template parts []) : l = .template parts [] := by
  cases l with
  | template parts' holes =>
    obtain ⟨rfl, hholes⟩ := Lexeme.template.inj h
    rw [List.map_eq_nil_iff.mp hholes]
  | _ => exact h

theorem eq_of_unplaced_text {l : Lexeme} {s : String} (h : l.unplaced = .text s) : l = .text s := by
  cases l with
  | template => cases h
  | _ => exact h

/-- Between quotes of either kind, with backslashes before this quote and before backslashes and
`\n` for each line break, and between backticks with backslashes before backticks, dollars and
backslashes, every text is a single token with this text for its value. -/
theorem tokenize_literal (s : String) :
    (∀ q : Quote, tokenize (.ofList (q.literal s)) =
      .ok [⟨.text s, 0⟩, ⟨.finish, byteLength (q.literal s)⟩]) ∧
    tokenize (.ofList (templateLiteral s)) =
      .ok [⟨.template [s] [], 0⟩, ⟨.finish, byteLength (templateLiteral s)⟩] := by
  constructor
  · intro q
    obtain ⟨l, hl, hread⟩ := (isReadFrom_quoted q s).tokenize rfl (List.cons_ne_nil _ _)
    rw [hread, eq_of_unplaced_text hl]
  · have htemplate : (Lexeme.template [s] []).IsRead :=
      isRead_template rfl (List.forall_mem_nil _)
    obtain ⟨l, hl, hread⟩ := htemplate.tokens.tokenize rfl htemplate.written_ne
    rw [eq_of_unplaced_template hl, written_template] at hread
    exact hread

/-- Only the quote around a text is escaped in it. -/
example : Quote.single.literal "say \"it's\"\n" = "'say \"it\\'s\"\\n'".toList := by decide

end TraceViewer.Snippet
