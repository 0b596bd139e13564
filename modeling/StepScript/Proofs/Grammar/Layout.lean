import StepScript.Proofs.Grammar.Alike
import StepScript.Proofs.Token.Longest

/-!
# Layout does not matter

The lexemes of a text may be written in many ways, with blanks and comments between them (`Spaced`). However this is
done, they are scanned to the same tokens but for their spans (`scan_spaced`): separators are skipped, and before one a
lexeme is taken whole and no more. Since reading carries spans along without looking at them, both texts spell the same
program, or have the same mistake (`compile_spaced`).
-/

namespace StepScript

/-- Blanks, and comments that end with their line. -/
inductive Separator : List Char → Prop
  | nil : Separator []
  | blank {c : Char} {cs : List Char} : c ∈ [' ', '\t', '\r', '\n'] → Separator cs → Separator (c :: cs)
  | comment {body cs : List Char} : '\n' ∉ body → Separator cs → Separator ('#' :: (body ++ '\n' :: cs))

/-- The lexemes in order, each one behind a separator that is not empty, and a separator at the end. -/
inductive Behind : List String → List Char → Prop
  | finish {sep : List Char} : Separator sep → Behind [] sep
  | next {lexeme : String} {lexemes : List String} {sep rest : List Char} : Separator sep → sep ≠ [] →
      Behind lexemes rest → Behind (lexeme :: lexemes) (sep ++ (lexeme.toList ++ rest))

/-- **A way of writing the lexemes**, with separators between neighbours, and at both ends if one likes. -/
inductive Spaced : List String → List Char → Prop
  | none {sep : List Char} : Separator sep → Spaced [] sep
  | some {lexeme : String} {lexemes : List String} {sep rest : List Char} : Separator sep → Behind lexemes rest →
      Spaced (lexeme :: lexemes) (sep ++ (lexeme.toList ++ rest))

/-! ## Separators -/

theorem Separator.breaks {sep : List Char} (h : Separator sep) (hne : sep ≠ []) (rest : List Char) :
    Breaks (sep ++ rest) := by
  rintro c hc
  cases h with
  | nil => exact absurd rfl hne
  | blank hb _ =>
    obtain rfl := Option.some.inj hc
    revert hb
    simp only [List.mem_cons, List.not_mem_nil]
    tauto
  | comment _ _ =>
    obtain rfl := Option.some.inj hc
    decide

theorem Behind.breaks {lexemes : List String} {rest : List Char} (h : Behind lexemes rest) : Breaks rest := by
  cases h with
  | @finish sep hs =>
    by_cases hne : rest = []
    · rw [hne]
      nofun
    · simpa using hs.breaks hne []
  | next hs hne _ => exact hs.breaks hne _

theorem scanItem_blank {c : Char} (h : c ∈ [' ', '\t', '\r', '\n']) (cs : List Char) :
    scanItem c cs = .ok ⟨.skipped, 0⟩ := by
  simp only [List.mem_cons, List.not_mem_nil, or_false] at h
  rcases h with rfl | rfl | rfl | rfl <;> rfl

theorem scanItem_comment {body : List Char} (h : '\n' ∉ body) (cs : List Char) :
    scanItem '#' (body ++ '\n' :: cs) = .ok ⟨.skipped, body.length⟩ := by
  simp only [scanItem, takeWhile_ne_append h]

section Scanning

variable {pos line : Nat} {done : List Token}

/-- An item of which all characters are known. -/
theorem scanFrom_item {c : Char} {cs rest : List Char} {item : Item} (h : scanItem c (cs ++ rest) = .ok item)
    (he : item.extra = cs.length) : scanFrom pos line done (c :: (cs ++ rest)) =
      scanFrom (pos + (c :: cs).length) (line + lineBreaks (c :: cs))
        ((Item.token? item.shape (c :: cs) ⟨pos, pos + (c :: cs).length, line⟩).toList ++ done) rest := by
  rw [scanFrom, h]
  simp only [he, List.take_left, List.drop_left]
  cases Item.token? item.shape (c :: cs) ⟨pos, pos + (c :: cs).length, line⟩ <;> rfl

/-- Separators are skipped. -/
theorem scanFrom_separator {sep : List Char} (h : Separator sep) (pos line : Nat) (done : List Token)
    (rest : List Char) : ∃ pos' line', scanFrom pos line done (sep ++ rest) = scanFrom pos' line' done rest := by
  induction h generalizing pos line with
  | nil => exact ⟨pos, line, rfl⟩
  | @blank c cs hc _ ih =>
    have hitem := @scanFrom_item pos line done c [] (cs ++ rest) _ (scanItem_blank hc _) rfl
    obtain ⟨pos', line', hrest⟩ := ih (pos + 1) (line + lineBreaks [c])
    exact ⟨pos', line', hitem.trans hrest⟩
  | @comment body cs hb _ ih =>
    have hitem := @scanFrom_item pos line done '#' body ('\n' :: (cs ++ rest)) _ (scanItem_comment hb _) rfl
    have hline := @scanFrom_item (pos + (body.length + 1)) (line + lineBreaks ('#' :: body)) done '\n' []
      (cs ++ rest) _ rfl rfl
    obtain ⟨pos', line', hrest⟩ := ih (pos + (body.length + 1) + 1) (line + lineBreaks ('#' :: body) + lineBreaks ['\n'])
    refine ⟨pos', line', ?_⟩
    rw [List.cons_append, List.append_assoc, List.cons_append]
    exact hitem.trans (hline.trans hrest)

/-- Before a break, a lexeme is taken whole and no more. -/
theorem scanFrom_lexeme {cs rest : List Char} {kind : TokenKind} {payload : Option Payload}
    (h : Lexeme cs kind payload) (hb : Breaks rest) (pos line : Nat) (done : List Token) :
    ∃ pos' line' span, scanFrom pos line done (cs ++ rest) =
      scanFrom pos' line' (⟨kind, String.ofList cs, payload, span⟩ :: done) rest := by
  obtain ⟨c, cs, rfl⟩ := List.exists_cons_of_ne_nil h.ne_nil
  obtain ⟨item, hitem, hm⟩ := meets_of_lexeme h rest
  have hextra := hm.most hb
  have hscan := @scanFrom_item pos line done c cs rest item hitem hextra
  rw [hm.token hextra] at hscan
  exact ⟨_, _, _, hscan⟩

end Scanning

/-! ## The same tokens -/

/-- Tokens of the same kinds with the same spellings and values, wherever they stand. -/
abbrev SameTokens : List Token → List Token → Prop := List.Forall₂ (Token.Alike fun _ _ => True)

/-- Wherever the text starts, it is scanned to these tokens and the end. -/
def ScansTo (text : List Char) (tokens : List Token) : Prop :=
  ∀ (pos line : Nat) (done : List Token), ∃ tokens' span,
    scanFrom pos line done text = .ok (done.reverse ++ (tokens' ++ [.eof span])) ∧ SameTokens tokens tokens'

theorem Separator.scansTo {sep : List Char} (h : Separator sep) : ScansTo sep [] := by
  intro pos line done
  obtain ⟨pos', line', hskip⟩ := scanFrom_separator h pos line done []
  rw [List.append_nil] at hskip
  rw [hskip, scanFrom]
  exact ⟨[], ⟨pos', pos', line'⟩, by simp, .nil⟩

/-- One more lexeme in front, with its separator. -/
theorem ScansTo.cons {t : Token} {tokens : List Token} {sep rest : List Char} (hs : Separator sep)
    (ht : Lexeme t.lexeme.toList t.kind t.payload) (hb : Breaks rest) (h : ScansTo rest tokens) :
    ScansTo (sep ++ (t.lexeme.toList ++ rest)) (t :: tokens) := by
  intro pos line done
  obtain ⟨pos₁, line₁, hskip⟩ := scanFrom_separator hs pos line done (t.lexeme.toList ++ rest)
  obtain ⟨pos₂, line₂, span, hlex⟩ := scanFrom_lexeme ht hb pos₁ line₁ done
  rw [String.ofList_toList] at hlex
  obtain ⟨tokens', finish, hscan, hsame⟩ := h pos₂ line₂ (⟨t.kind, t.lexeme, t.payload, span⟩ :: done)
  refine ⟨⟨t.kind, t.lexeme, t.payload, span⟩ :: tokens', finish, ?_, .cons ⟨rfl, rfl, rfl, trivial⟩ hsame⟩
  rw [hskip, hlex, hscan, List.reverse_cons, List.append_assoc]
  rfl

/-- One lexeme after the other, behind separators. -/
theorem Behind.scansTo {lexemes : List String} {text : List Char} (h : Behind lexemes text) :
    ∀ tokens : List Token, tokens.map (·.lexeme) = lexemes →
      (∀ t ∈ tokens, Lexeme t.lexeme.toList t.kind t.payload) → ScansTo text tokens := by
  induction h with
  | finish hs =>
    intro tokens ht _
    rw [List.map_eq_nil_iff.1 ht]
    exact hs.scansTo
  | next hs _ hrest ih =>
    intro tokens ht hl
    obtain ⟨t, tokens, rfl, rfl, hts⟩ := List.map_eq_cons_iff.1 ht
    obtain ⟨hlt, hl⟩ := List.forall_mem_cons.1 hl
    exact .cons hs hlt hrest.breaks (ih tokens hts hl)

/-- The first lexeme needs no separator before it. -/
theorem Spaced.scansTo {lexemes : List String} {text : List Char} (h : Spaced lexemes text) (tokens : List Token)
    (ht : tokens.map (·.lexeme) = lexemes) (hl : ∀ t ∈ tokens, Lexeme t.lexeme.toList t.kind t.payload) :
    ScansTo text tokens := by
  cases h with
  | none hs =>
    rw [List.map_eq_nil_iff.1 ht]
    exact hs.scansTo
  | some hs hrest =>
    obtain ⟨t, tokens, rfl, rfl, hts⟩ := List.map_eq_cons_iff.1 ht
    obtain ⟨hlt, hl⟩ := List.forall_mem_cons.1 hl
    exact .cons hs hlt hrest.breaks (hrest.scansTo tokens hts hl)

/-- **However its lexemes are written**, a text is scanned to the same tokens. -/
theorem scan_spaced {source other : String} {tokens : List Token} (h : scan source = .ok tokens)
    (hs : Spaced (tokens.dropLast.map (·.lexeme)) other.toList) :
    ∃ tokens', scan other = .ok tokens' ∧ SameTokens tokens tokens' := by
  obtain ⟨body, line, rfl, hlongest⟩ := longest_of_scanFrom 0 1 [] source.toList h [] rfl (List.forall_mem_nil _)
  rw [List.dropLast_concat] at hs
  have hl : ∀ t ∈ body, Lexeme t.lexeme.toList t.kind t.payload := fun t ht => (hlongest t ht).lexeme
  obtain ⟨body', span, hscan, hsame⟩ := hs.scansTo body rfl hl 0 1 []
  exact ⟨body' ++ [Token.eof span], hscan, List.rel_append hsame (.cons ⟨rfl, rfl, rfl, trivial⟩ .nil)⟩

/-! ## The same program -/

/-- Both texts spell the same program modulo spans, or have the same mistake: of the same kind, near the same token and
with the same message and help. -/
def CompileAlike (source other : String) : Prop :=
  (∃ p p', compile source = .ok p ∧ compile other = .ok p' ∧ Stmt.bares p = Stmt.bares p') ∨
  (∃ d d', compile source = .error d ∧ compile other = .error d' ∧ d.fault = d'.fault ∧ d.near = d'.near ∧
    d.message = d'.message ∧ d.help = d'.help)

/-- **Layout does not matter.** Take a text that is scanned, and another one that its lexemes are written to in order,
with any separators of blanks and comments between them: the other one is scanned to the same kinds, lexemes and values,
and both compile to the same program modulo spans, or to the same mistake. -/
theorem compile_spaced {source other : String} {tokens : List Token} (h : scan source = .ok tokens)
    (hs : Spaced (tokens.dropLast.map (·.lexeme)) other.toList) :
    (∃ tokens', scan other = .ok tokens' ∧
      tokens'.map (fun t => (t.kind, t.lexeme, t.payload)) = tokens.map fun t => (t.kind, t.lexeme, t.payload)) ∧
    CompileAlike source other := by
  obtain ⟨tokens', hother, hsame⟩ := scan_spaced h hs
  refine ⟨⟨tokens', hother, ?_⟩, ?_⟩
  · rw [← List.forall₂_eq_eq_eq, List.forall₂_map_left_iff, List.forall₂_map_right_iff]
    exact hsame.flip.imp fun t t' ht => by rw [ht.kind, ht.lexeme, ht.payload]
  · unfold CompileAlike
    rw [compile_of_scan h, compile_of_scan hother]
    have halike := Grammar.parse_alike ⟨fun _ _ => trivial⟩ (Grammar.takeWhile_alike hsame)
    generalize Grammar.parse tokens = x at halike
    generalize Grammar.parse tokens' = x' at halike
    cases halike with
    | ok hp => exact .inl ⟨_, _, rfl, rfl, hp.bares_eq⟩
    | error hd =>
      refine .inr ⟨_, _, rfl, rfl, hd.fault, hd.near, ?_, ?_⟩
      · rw [Diagnostic.message, hd.fault, Diagnostic.message]
      · rw [Diagnostic.help, hd.fault, Diagnostic.help]

/-- Two statements on one line. -/
def onOneLine : String := "x=1;x==7.5;"

/-- Their lexemes over four lines, with comments. -/
def overFourLines : String := "\tx = #a\n1 ; x #\"b\n==\r7.5 #c\n;"

theorem spaced_overFourLines : Spaced ["x", "=", "1", ";", "x", "==", "7.5", ";"] overFourLines.toList := by
  have hspace : Separator [' '] := .blank (by decide) .nil
  have htab : Separator ['\t'] := .blank (by decide) .nil
  have hreturn : Separator ['\r'] := .blank (by decide) .nil
  have ha : Separator " #a\n".toList := .blank (by decide) (.comment (by decide : '\n' ∉ ['a']) .nil)
  have hb : Separator " #\"b\n".toList := .blank (by decide) (.comment (by decide : '\n' ∉ ['"', 'b']) .nil)
  have hc : Separator " #c\n".toList := .blank (by decide) (.comment (by decide : '\n' ∉ ['c']) .nil)
  exact .some htab (.next hspace (by decide) (.next ha (by decide) (.next hspace (by decide) (.next hspace (by decide)
    (.next hb (by decide) (.next hreturn (by decide) (.next hc (by decide) (.finish .nil))))))))

theorem compile_spaced_overFourLines : ∃ tokens, scan onOneLine = .ok tokens ∧
    Spaced (tokens.dropLast.map (·.lexeme)) overFourLines.toList ∧ CompileAlike onOneLine overFourLines := by
  obtain ⟨tokens, h, hlexemes⟩ : ∃ tokens, scan onOneLine = .ok tokens ∧
      tokens.dropLast.map (·.lexeme) = ["x", "=", "1", ";", "x", "==", "7.5", ";"] :=
    ⟨_, (scan_eq_scanWithin _).trans rfl, rfl⟩
  have hspaced : Spaced (tokens.dropLast.map (·.lexeme)) overFourLines.toList := by
    rw [hlexemes]
    exact spaced_overFourLines
  exact ⟨tokens, h, hspaced, (compile_spaced h hspaced).2⟩

end StepScript
