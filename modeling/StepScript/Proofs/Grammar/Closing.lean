import StepScript.Grammar.Program
import StepScript.Proofs.Token.Tiling

/-!
# The token that ends the text

Before any token is taken, the one that ends the text stands for the latest one, and a fault that is met there is at its
place. But reading only starts if there is a token ahead, and then it either takes that token or fails at it: it does the
same whatever stands for the latest one (`Reader.Grips`, `declaration_grips`).

So a list of tokens is read in the same way with the token that ends it and without, though the one that is made up
stands somewhere else (`parse_without_end`).
-/

namespace StepScript

/-- The same outcome; a reader that fails where it started stands before the same tokens. -/
inductive Reading.Same {α : Type} (ts : List Token) : Reading α → Reading α → Prop
  | done (a : α) (c : Cursor) : Reading.Same ts (.done a c) (.done a c)
  | failed (d : Diagnostic) (c : Cursor) : Reading.Same ts (.failed d c) (.failed d c)
  | atOnce (d : Diagnostic) (l l' : Option Token) : Reading.Same ts (.failed d ⟨l, ts⟩) (.failed d ⟨l', ts⟩)
  | exhausted : Reading.Same ts .exhausted .exhausted

theorem Reading.Same.refl {α : Type} {ts : List Token} : ∀ x : Reading α, x.Same ts x
  | .done a c => .done a c
  | .failed d c => .failed d c
  | .exhausted => .exhausted

/-- If there is a token ahead, the reader does the same whatever stands for the latest one. -/
def Reader.Grips {α : Type} (r : Reader α) : Prop :=
  ∀ (t : Token) (ts : List Token) (l l' : Option Token), (r ⟨l, t :: ts⟩).Same (t :: ts) (r ⟨l', t :: ts⟩)

namespace Reader.Grips

variable {α β : Type}

theorem exhausted : (Reader.exhausted : Reader α).Grips := fun _ _ _ _ => .exhausted

/-- What comes behind a token is the same anyway. -/
theorem bind {r : Reader α} (h : r.Grips) (f : α → Reader β) : (r >>= f).Grips := by
  intro t ts l l'
  show Reading.Same (t :: ts) (Reader.bind r f ⟨l, t :: ts⟩) (Reader.bind r f ⟨l', t :: ts⟩)
  unfold Reader.bind
  have hfirst := h t ts l l'
  generalize r ⟨l, t :: ts⟩ = x at hfirst
  generalize r ⟨l', t :: ts⟩ = x' at hfirst
  cases hfirst with
  | done a c => exact .refl _
  | failed d c => exact .failed d c
  | atOnce d l l' => exact .atOnce d l l'
  | exhausted => exact .exhausted

/-- If the next token is not taken, the reader is still at the start. -/
theorem acceptAs_bind {classify : TokenKind → Option α} {k : Option (α × Token) → Reader β} (hn : (k none).Grips) :
    (Reader.acceptAs classify >>= k).Grips := by
  intro t ts l l'
  show Reading.Same (t :: ts) (Reader.bind _ k ⟨l, t :: ts⟩) (Reader.bind _ k ⟨l', t :: ts⟩)
  unfold Reader.bind Reader.acceptAs
  cases hc : classify t.kind with
  | none => simpa only [hc] using hn t ts l l'
  | some a => simpa only [hc] using .refl _

theorem accept_bind {kind : TokenKind} {k : Option Token → Reader β} (hn : (k none).Grips) :
    (Reader.accept kind >>= k).Grips := by
  intro t ts l l'
  show Reading.Same (t :: ts) (Reader.bind _ k ⟨l, t :: ts⟩) (Reader.bind _ k ⟨l', t :: ts⟩)
  unfold Reader.bind Reader.accept
  by_cases hk : t.kind = kind
  · simpa only [hk, if_true] using .refl _
  · simpa only [hk, if_false] using hn t ts l l'

end Reader.Grips

namespace Grammar

open Reader

/-! ## Readers that take the next token or fail at it -/

theorem takeOpening_grips : takeOpening.Grips := by
  intro t ts l l'
  unfold takeOpening
  dsimp only
  cases opening t with
  | none => exact .atOnce _ l l'
  | whole | group | array | hollow => exact .refl _

theorem primary_grips : ∀ n, (primary n).Grips
  | 0 => by rw [primary]; exact .exhausted
  | n + 1 => by rw [primary]; exact .bind takeOpening_grips _

theorem signed_grips : ∀ n, (signed n).Grips
  | 0 => by rw [signed]; exact .exhausted
  | n + 1 => by rw [signed]; exact .acceptAs_bind (.bind (primary_grips n) _)

theorem tier_grips (n : Nat) : (∀ t, (tier n t).Grips) ∧ ∀ t, (operand n t).Grips := by
  induction n with
  | zero =>
    refine ⟨fun t => ?_, fun t => ?_⟩
    · rw [tier]; exact .exhausted
    · rw [operand]; exact .exhausted
  | succ n ih =>
    refine ⟨fun t => ?_, fun t => ?_⟩
    · rw [tier]; exact .bind (ih.2 t) _
    · rw [operand]
      cases t.next? with
      | some tighter => exact ih.1 tighter
      | none => exact signed_grips n

theorem expression_grips : ∀ n, (expression n).Grips
  | 0 => by rw [expression]; exact .exhausted
  | n + 1 => by rw [expression]; exact .bind ((tier_grips n).1 .or) _

theorem statement_grips : ∀ n, (statement n).Grips
  | 0 => by rw [statement]; exact .exhausted
  | n + 1 => by rw [statement]; exact .acceptAs_bind (.bind (expression_grips n) _)

/-- **A declaration is read from its first token on**, whatever stands before it. -/
theorem declaration_grips : ∀ n, (declaration n).Grips
  | 0 => by rw [declaration]; exact .exhausted
  | n + 1 => by rw [declaration]; exact .accept_bind (statement_grips n)

/-! ## Programs -/

section Programs

variable (n : Nat) (l l' : Option Token)

/-- The first declaration, or the mistake in it and where reading goes on. -/
theorem nextDeclaration_start (t : Token) (ts : List Token) :
    (∃ s c, nextDeclaration n ⟨l, t :: ts⟩ = (.ok s, c) ∧ nextDeclaration n ⟨l', t :: ts⟩ = (.ok s, c)) ∨
      ∃ d c c', nextDeclaration n ⟨l, t :: ts⟩ = (.error d, c) ∧ nextDeclaration n ⟨l', t :: ts⟩ = (.error d, c') ∧
        synchronize c = synchronize c' := by
  have hsame := declaration_grips n t ts l l'
  unfold nextDeclaration
  generalize declaration n ⟨l, t :: ts⟩ = x at hsame
  generalize declaration n ⟨l', t :: ts⟩ = x' at hsame
  cases hsame with
  | done s c => exact .inl ⟨s, c, rfl, rfl⟩
  | failed d c => exact .inr ⟨d, c, c, rfl, rfl, rfl⟩
  | atOnce d => exact .inr ⟨d, _, _, rfl, rfl, rfl⟩
  | exhausted => exact .inr ⟨_, _, _, rfl, rfl, rfl⟩

theorem declarations_start (done : List Stmt) (turns : Nat) (ts : List Token) :
    declarations n done turns ⟨l, ts⟩ = declarations n done turns ⟨l', ts⟩ := by
  cases turns with
  | zero => rfl
  | succ turns =>
    cases ts with
    | nil => rfl
    | cons t ts =>
      rw [declarations, declarations]
      rcases nextDeclaration_start n l l' t ts with ⟨s, c, h, h'⟩ | ⟨d, c, c', h, h', -⟩ <;> rw [h, h'] <;> rfl

theorem declarationsRecovering_start (done : List Stmt) (problems : List Diagnostic) (turns : Nat) (ts : List Token) :
    declarationsRecovering n done problems turns ⟨l, ts⟩ = declarationsRecovering n done problems turns ⟨l', ts⟩ := by
  cases turns with
  | zero => rfl
  | succ turns =>
    cases ts with
    | nil => rfl
    | cons t ts =>
      rw [declarationsRecovering, declarationsRecovering]
      rcases nextDeclaration_start n l l' t ts with ⟨s, c, h, h'⟩ | ⟨d, c, c', h, h', hs⟩
      · rw [h, h']
        rfl
      · rw [h, h']
        dsimp only
        rw [hs]
        rfl

end Programs

/-- Only the tokens before the one that ends the text are read. -/
theorem parse_of_ahead {tokens tokens' : List Token}
    (h : (tokens.takeWhile fun t => !t.isEof) = tokens'.takeWhile fun t => !t.isEof) :
    parse tokens = parse tokens' ∧ parseRecovering tokens = parseRecovering tokens' := by
  unfold parse parseRecovering Cursor.ofTokens
  rw [h]
  exact ⟨declarations_start _ _ _ _ _ _, declarationsRecovering_start _ _ _ _ _ _ _⟩

/-- The last token of a text is its only end. -/
theorem ahead_eq_dropLast {source : String} {tokens : List Token} (h : scan source = .ok tokens) :
    (tokens.takeWhile fun t => !t.isEof) = tokens.dropLast := by
  obtain ⟨body, line, rfl, hbody⟩ := (scan_tiles h).finish
  have hinner : ∀ t ∈ body, (!t.isEof) = true := fun t ht => by simpa [Token.isEof] using (hbody t ht).1
  rw [List.dropLast_concat, List.takeWhile_append_of_pos hinner]
  exact List.append_nil body

/-- **The token that ends a text may be missing.** The last token of a text that is scanned is its end. Without this
token, the others are read to the same program or the same first mistake, and past mistakes to the same declarations
and the same mistakes, all spans included. -/
theorem parse_without_end {source : String} {tokens : List Token} (h : scan source = .ok tokens) :
    (∃ line, tokens.getLast? = some (.eof ⟨source.toList.length, source.toList.length, line⟩)) ∧
      parse tokens.dropLast = parse tokens ∧ parseRecovering tokens.dropLast = parseRecovering tokens := by
  obtain ⟨body, line, htokens, -⟩ := (scan_tiles h).finish
  have hahead := ahead_eq_dropLast h
  refine ⟨⟨line, by rw [htokens, List.getLast?_concat]⟩, parse_of_ahead ?_⟩
  rw [hahead, List.takeWhile_eq_self_iff]
  intro t ht
  rw [← hahead] at ht
  simpa using List.mem_takeWhile_imp ht

/-- A text that ends within an expression, with empty lines behind. -/
def openGroup : String := "a = ;\nb = (c \n\n"

/-- The end of the text and the one that is made up are on different lines; the second mistake is at neither. -/
theorem parse_without_end_openGroup : ∃ tokens, scan openGroup = .ok tokens ∧
    (closingToken tokens).span = ⟨15, 15, 4⟩ ∧ (closingToken tokens.dropLast).span = ⟨12, 12, 2⟩ ∧
    (parseRecovering tokens.dropLast).2.map (·.span) = [some ⟨4, 5, 1⟩, some ⟨12, 13, 2⟩] ∧
    parse tokens.dropLast = parse tokens ∧ parseRecovering tokens.dropLast = parseRecovering tokens := by
  have hscan : scan openGroup = .ok
      [⟨.identifier, "a", none, ⟨0, 1, 1⟩⟩, ⟨.equal, "=", none, ⟨2, 3, 1⟩⟩, ⟨.semicolon, ";", none, ⟨4, 5, 1⟩⟩,
        ⟨.identifier, "b", none, ⟨6, 7, 2⟩⟩, ⟨.equal, "=", none, ⟨8, 9, 2⟩⟩, ⟨.leftParen, "(", none, ⟨10, 11, 2⟩⟩,
        ⟨.identifier, "c", none, ⟨11, 12, 2⟩⟩, .eof ⟨15, 15, 4⟩] := (scan_eq_scanWithin _).trans rfl
  exact ⟨_, hscan, rfl, rfl, rfl, (parse_without_end hscan).2⟩

end Grammar

end StepScript
