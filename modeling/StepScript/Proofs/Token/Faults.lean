import StepScript.Proofs.Grammar.Layout

/-!
# Where scanning fails

Between two items of a text stand the positions that its blanks, its comments and its longest lexemes lead to
(`Scanned`). At such a position a text may be stuck: on a character that nothing starts with, or on a quote without its
match (`Stuck`). Both are said by the lexical grammar and not by the scanner.

* Where a position is reached, the scanner stands at it, with the line breaks before it counted (`Scanned.scanFrom_eq`);
  where the text is stuck there, it fails with the diagnostic for it (`Stuck.scanFrom_eq`).
* The scanner itself only goes through reached positions, until the text is at its end or stuck (`stuck_of_scanFrom`).

So a text is scanned, or it is stuck at a reached position and everything before that position is scanned
(`scan_stuck_or_ok`).
-/

namespace StepScript

/-- The positions of a text between its items: behind blanks and comments, and behind the longest lexeme that the text
goes on with. -/
inductive Scanned (text : List Char) : Nat → Prop
  | start : Scanned text 0
  | gap {p : Nat} {gap rest : List Char} : Scanned text p → text.drop p = gap ++ rest → Gap gap rest →
      Scanned text (p + gap.length)
  | token {p : Nat} {cs : List Char} {kind : TokenKind} {payload : Option Payload} : Scanned text p →
      cs <+: text.drop p → Lexeme cs kind payload →
      (∀ {ds kind payload}, Lexeme ds kind payload → ds <+: text.drop p → ds.length ≤ cs.length) →
      Scanned text (p + cs.length)

/-- The line of a position: one more than there are line breaks before it. -/
def lineAt (text : List Char) (p : Nat) : Nat := 1 + (text.take p).count '\n'

/-- **The text cannot go on at a position**, and the diagnostic says why and where. -/
inductive Stuck (text : List Char) (p : Nat) : Diagnostic → Prop
  /-- No blank, comment or token starts with the character. -/
  | unexpected {c : Char} {rest : List Char} : text.drop p = c :: rest → c ∉ [' ', '\t', '\r', '\n', '#'] →
      (∀ cs kind payload, ¬ Lexeme (c :: cs) kind payload) →
      Stuck text p (.lexical ⟨p, p + 1, lineAt text p⟩ (.unexpected c))
  /-- The quote does not occur a second time. -/
  | unterminated {quote : Char} {rest : List Char} : text.drop p = quote :: rest → quote = '"' ∨ quote = '\'' →
      quote ∉ rest → Stuck text p (.lexical ⟨p, text.length, lineAt text p⟩ (.unterminated quote))

/-! ## Items that are none -/

/-- Nothing starts with an unexpected character, whatever follows it; and a quote is unterminated where it does not
occur again. -/
theorem scanItem_error {c : Char} {cs : List Char} {fault : LexicalFault} (h : scanItem c cs = .error fault) :
    (fault = .unexpected c ∧ ∀ ds, scanItem c ds = .error (.unexpected c)) ∨
      (fault = .unterminated c ∧ (c = '"' ∨ c = '\'') ∧ c ∉ cs) := by
  unfold scanItem at h
  split at h
  case h_23 =>
    by_cases hq : (c == '"' || c == '\'') = true
    · rw [if_pos hq] at h
      dsimp only at h
      split at h
      · rename_i hdrop
        cases h
        rw [(split_takeWhile cs).2, List.dropWhile_eq_nil_iff] at hdrop
        exact .inr ⟨rfl, by simpa using hq, fun hm => by simpa using hdrop c hm⟩
      · cases h
    · rw [if_neg hq] at h
      split at h
      · cases h
      · split at h
        · cases h
        · rename_i hd hw
          cases h
          refine .inl ⟨rfl, fun ds => ?_⟩
          unfold scanItem
          split
          case h_23 => rw [if_neg hq, if_neg hd, if_neg hw]
          all_goals contradiction
  all_goals cases h

/-- A quote that does not occur again. -/
theorem scanItem_unterminated {quote : Char} (hq : quote = '"' ∨ quote = '\'') {cs : List Char} (h : quote ∉ cs) :
    scanItem quote cs = .error (.unterminated quote) := by
  have hquote : (quote == '"' || quote == '\'') = true := by simpa using hq
  have hdrop : cs.drop (cs.takeWhile (· != quote)).length = [] := by
    rw [(split_takeWhile cs).2, List.dropWhile_eq_nil_iff]
    exact fun d hd => by simpa using fun he : d = quote => h (he ▸ hd)
  unfold scanItem
  split
  case h_23 => simp only [hquote, hdrop, if_true]
  all_goals exact absurd hquote (by decide)

/-- An item that is not skipped makes a token. -/
theorem exists_token {shape : ItemShape} (h : shape ≠ .skipped) (text : List Char) (span : Span) :
    ∃ t, Item.token? shape text span = some t := by
  cases shape with
  | skipped => exact absurd rfl h
  | sign | word | number | string => exact ⟨_, rfl⟩

/-- A character that starts no blank, comment or token is not expected. -/
theorem scanItem_unexpected {c : Char} (hb : c ∉ [' ', '\t', '\r', '\n', '#'])
    (hl : ∀ cs kind payload, ¬ Lexeme (c :: cs) kind payload) (cs : List Char) :
    scanItem c cs = .error (.unexpected c) := by
  cases hitem : scanItem c cs with
  | ok item =>
    exfalso
    by_cases hs : item.shape = .skipped
    · -- What is skipped is a blank or a comment.
      have hgap := (scanItem_shape hitem).1 hs
      generalize htext : c :: cs.take item.extra = text at hgap
      cases hgap with
      | nil => cases htext
      | blank hc => cases htext; exact hb (List.mem_append_left ['#'] hc)
      | comment =>
        rw [(List.cons.inj htext).1] at hb
        exact hb (by decide)
    · obtain ⟨t, ht⟩ := exists_token hs (c :: cs.take item.extra) default
      exact hl _ _ _ (fits_of_scanItem hitem _ _ ht)
  | error fault =>
    rcases scanItem_error hitem with ⟨rfl, -⟩ | ⟨-, hq, -⟩
    · rfl
    · exact absurd (Lexeme.string hq List.not_mem_nil) (hl _ _ _)

/-! ## Positions -/

section Positions

variable {text cs rest : List Char} {p : Nat}

theorem lineAt_add (h : text.drop p = cs ++ rest) : lineAt text (p + cs.length) = lineAt text p + lineBreaks cs := by
  rw [lineAt, lineAt, List.take_add, h, List.take_left, List.count_append, Nat.add_assoc]
  rfl

theorem drop_add (h : text.drop p = cs ++ rest) : text.drop (p + cs.length) = rest := by
  rw [← List.drop_drop, h, List.drop_left]

/-- Blanks and comments are skipped, and their lines counted. -/
theorem scanFrom_gap (h : Gap cs rest) (line : Nat) (done : List Token) :
    scanFrom p line done (cs ++ rest) = scanFrom (p + cs.length) (line + lineBreaks cs) done rest := by
  induction h generalizing p line with
  | nil => rfl
  | @blank c gap rest hc _ ih =>
    have hitem := @scanFrom_item p line done c [] (gap ++ rest) _ (scanItem_blank hc _) rfl
    rw [← List.singleton_append, lineBreaks_append, ← Nat.add_assoc, List.length_append, ← Nat.add_assoc]
    exact hitem.trans (ih _)
  | @comment body gap rest hb hn _ ih =>
    -- A comment goes as far as its line does.
    have hextra : ((body ++ (gap ++ rest)).takeWhile (· != '\n')).length = body.length := by
      generalize gap ++ rest = behind at hn
      rw [List.takeWhile_append_of_pos fun d hd => by simpa using fun he : d = '\n' => hb (he ▸ hd)]
      cases behind with
      | nil => rw [List.takeWhile_nil, List.append_nil]
      | cons d behind => rw [hn d rfl, List.takeWhile_cons_of_neg (by decide), List.append_nil]
    have hitem := @scanFrom_item p line done '#' body (gap ++ rest) _ rfl hextra
    rw [← List.cons_append, List.append_assoc, lineBreaks_append, ← Nat.add_assoc, List.length_append, ← Nat.add_assoc]
    exact hitem.trans (ih _)

/-- A gap does not need what stands behind it. -/
theorem Gap.take (h : Gap cs rest) (k : Nat) : Gap cs (rest.take k) := by
  induction h with
  | nil => exact .nil _
  | blank hc _ ih => exact .blank hc ih
  | @comment body gap rest hb hn _ ih =>
    refine .comment hb (fun c hc => hn c ?_) ih
    obtain ⟨behind, hbehind⟩ := List.take_prefix k rest
    rw [← hbehind, ← List.append_assoc]
    exact List.mem_head?_append_of_mem_head? hc

/-- The longest lexeme is taken. -/
theorem scanFrom_longest {kind : TokenKind} {payload : Option Payload} (h : Lexeme cs kind payload)
    (hlongest : ∀ {ds kind payload}, Lexeme ds kind payload → ds <+: cs ++ rest → ds.length ≤ cs.length)
    (line : Nat) (done : List Token) : ∃ done', scanFrom p line done (cs ++ rest) =
      scanFrom (p + cs.length) (line + lineBreaks cs) done' rest := by
  obtain ⟨c, cs, rfl⟩ := List.exists_cons_of_ne_nil h.ne_nil
  obtain ⟨item, hitem, hm⟩ := meets_of_lexeme h rest
  have hextra : item.extra = cs.length := by
    cases rest with
    | nil => exact hm.most nofun
    | cons d rest =>
      obtain ⟨t, ht⟩ := exists_token hm.unskipped (c :: (cs ++ d :: rest).take item.extra) default
      have hle := hlongest (fits_of_scanItem hitem _ _ ht) ((List.prefix_cons_inj c).2 (List.take_prefix _ _))
      have hleast := hm.least
      simp only [List.length_cons, List.length_take, List.length_append] at hle
      omega
  exact ⟨_, scanFrom_item hitem hextra⟩

end Positions

namespace Scanned

variable {text : List Char} {p : Nat}

/-- **The scanner stands at every reached position**, on its line. -/
theorem scanFrom_eq (h : Scanned text p) :
    ∃ done, scanFrom 0 1 [] text = scanFrom p (lineAt text p) done (text.drop p) := by
  induction h with
  | start => exact ⟨[], rfl⟩
  | gap _ htext hg ih =>
    obtain ⟨done, ih⟩ := ih
    rw [htext, scanFrom_gap hg] at ih
    exact ⟨done, by rw [lineAt_add htext, drop_add htext, ih]⟩
  | token _ hfront hl hlongest ih =>
    obtain ⟨done, ih⟩ := ih
    obtain ⟨rest, htext⟩ := hfront
    rw [← htext] at hlongest ih
    obtain ⟨done', hscan⟩ := scanFrom_longest hl hlongest _ done
    exact ⟨done', by rw [lineAt_add htext.symm, drop_add htext.symm, ih, hscan]⟩

/-- What is reached is reached without what stands behind it. -/
theorem take (h : Scanned text p) {q : Nat} (hq : p ≤ q) : Scanned (text.take q) p := by
  induction h with
  | start => exact .start
  | @gap p gap rest _ htext hg ih =>
    refine @Scanned.gap _ p gap (rest.take (q - p - gap.length)) (ih (by omega)) ?_ ?_
    · rw [List.drop_take, htext, List.take_append, List.take_of_length_le (by omega)]
    · exact hg.take _
  | @token p cs kind payload _ hfront hl hlongest ih =>
    refine (ih (by omega)).token ?_ hl fun hl' hf => hlongest hl' ?_
    · rw [List.drop_take]
      exact List.prefix_take_iff.2 ⟨hfront, by omega⟩
    · rw [List.drop_take] at hf
      exact hf.trans (List.take_prefix _ _)

/-- An item leads to the next reached position. -/
theorem item (h : Scanned text p) {c : Char} {cs : List Char} {item : Item} (htext : text.drop p = c :: cs)
    (hitem : scanItem c cs = .ok item) : Scanned text (p + (c :: cs.take item.extra).length) := by
  have hsplit : text.drop p = (c :: cs.take item.extra) ++ cs.drop item.extra := by
    rw [htext, List.cons_append, List.take_append_drop]
  by_cases hs : item.shape = .skipped
  · exact h.gap hsplit ((scanItem_shape hitem).1 hs)
  · obtain ⟨t, ht⟩ := exists_token hs (c :: cs.take item.extra) default
    have hlongest := longest_of_scanItem hitem ht
    have hlexeme : t.lexeme.toList = c :: cs.take item.extra := by
      rw [(token?_lexeme ht).1, String.toList_ofList]
    rw [← htext] at hlongest
    rw [← hlexeme]
    exact h.token hlongest.front hlongest.lexeme hlongest.longest

end Scanned

/-! ## The diagnostic -/

/-- **Where the text is stuck, the scanner fails** as the diagnostic says. -/
theorem Stuck.scanFrom_eq {text : List Char} {p : Nat} {d : Diagnostic} (h : Stuck text p d) (done : List Token) :
    scanFrom p (lineAt text p) done (text.drop p) = .error d := by
  cases h with
  | unexpected htext hb hl =>
    rw [htext, scanFrom, scanItem_unexpected hb hl]
    rfl
  | @unterminated quote rest htext hq hr =>
    have hlength : p + (rest.length + 1) = text.length := by
      have := congrArg List.length htext
      simp only [List.length_drop, List.length_cons] at this
      omega
    rw [htext, scanFrom, scanItem_unterminated hq hr]
    simp only [LexicalFault.span, hlength]

theorem stuck_of_scanItem {text cs : List Char} {c : Char} {p : Nat} {fault : LexicalFault}
    (htext : text.drop p = c :: cs) (h : scanItem c cs = .error fault) :
    Stuck text p (.lexical (fault.span p (lineAt text p) (cs.length + 1)) fault) := by
  rcases scanItem_error h with ⟨rfl, hall⟩ | ⟨rfl, hq, hc⟩
  · refine .unexpected htext (fun hb => ?_) fun ds kind payload hl => ?_
    · simp only [List.mem_cons, List.not_mem_nil, or_false] at hb
      rcases hb with rfl | rfl | rfl | rfl | rfl <;> cases hall []
    · obtain ⟨item, hitem, -⟩ := meets_of_lexeme hl []
      rw [hall] at hitem
      cases hitem
  · have hlength : p + (cs.length + 1) = text.length := by
      have := congrArg List.length htext
      simp only [List.length_drop, List.length_cons] at this
      omega
    rw [LexicalFault.span, hlength]
    exact .unterminated htext hq hc

/-- Item by item, the scanner stands at reached positions until it is at the end or stuck. -/
theorem stuck_of_scanFrom {text : List Char} (pos line : Nat) (done : List Token) (rest : List Char)
    (htext : text.drop pos = rest) (hline : line = lineAt text pos) (hpos : Scanned text pos)
    (hdone : ∀ t ∈ done, Scanned text t.span.start) :
    (∃ d p, scanFrom pos line done rest = .error d ∧ Scanned text p ∧ Stuck text p d) ∨
      ∃ tokens, scanFrom pos line done rest = .ok tokens ∧ ∀ t ∈ tokens, Scanned text t.span.start := by
  fun_induction scanFrom pos line done rest with
  | case1 pos line done =>
    refine .inr ⟨_, rfl, fun t ht => ?_⟩
    rcases List.mem_cons.1 (List.mem_reverse.1 ht) with rfl | ht
    · exact hpos
    · exact hdone t ht
  | case2 pos line done c cs fault hitem =>
    subst hline
    exact .inl ⟨_, pos, rfl, hpos, stuck_of_scanItem htext hitem⟩
  | case3 pos line done c cs item hitem text' next done' ih =>
    have hsplit : text.drop pos = text' ++ cs.drop item.extra := by
      rw [htext, List.cons_append, List.take_append_drop]
    refine ih (drop_add hsplit) (by rw [hline, lineAt_add hsplit]) (hpos.item htext hitem) fun t ht => ?_
    cases htoken : Item.token? item.shape text' ⟨pos, next, line⟩ with
    | none =>
      have hd : done' = done := by simp only [done', htoken]
      exact hdone t (hd ▸ ht)
    | some u =>
      have hd : done' = u :: done := by simp only [done', htoken]
      rw [hd] at ht
      rcases List.mem_cons.1 ht with rfl | ht
      · rw [(token?_lexeme htoken).2]
        exact hpos
      · exact hdone t ht

/-- What is said of a character that the text is stuck on. -/
def stuckMessage (c : Char) : String :=
  if c = '"' ∨ c = '\'' then "Unterminated string" else "Unexpected character '" ++ c.toString ++ "'"

theorem Stuck.message_eq {text : List Char} {p : Nat} {d : Diagnostic} (h : Stuck text p d) :
    ∃ c, text[p]? = some c ∧ d.message = stuckMessage c := by
  cases h with
  | @unexpected c rest htext hb hl =>
    refine ⟨c, by rw [← List.head?_drop, htext]; rfl, ?_⟩
    have hq : ¬ (c = '"' ∨ c = '\'') := fun hq => hl _ _ _ (.string hq List.not_mem_nil)
    rw [stuckMessage, if_neg hq]
    rfl
  | @unterminated quote rest htext hq hr =>
    refine ⟨quote, by rw [← List.head?_drop, htext]; rfl, ?_⟩
    rw [stuckMessage, if_pos hq]
    rfl

theorem stuckMessage_ne (c : Char) (digits : String) : stuckMessage c ≠ "Invalid number: " ++ digits := by
  intro h
  have hhead := congrArg (fun s => s.toList.head?) h
  unfold stuckMessage at hhead
  split at hhead <;> simp at hhead

/-- **Lexical faults are exact.** A text is not scanned if and only if it is stuck somewhere that its blanks, comments
and longest lexemes lead to. Then everything before that position is scanned, and the diagnostic is that of the
position: it names the character there and has its span and its line, or it has the span from the unmatched quote to the
end and the line of the quote; it is never about a number. A text that is scanned is stuck at none of the positions that
are reached, of which its tokens start at some. -/
theorem scan_stuck_or_ok (source : String) :
    (∃ d p, scan source = .error d ∧ Scanned source.toList p ∧ Stuck source.toList p d ∧
      (∃ c, source.toList[p]? = some c ∧ d.message = stuckMessage c) ∧
      (∀ digits, d.message ≠ "Invalid number: " ++ digits) ∧
      ∃ tokens, scan (String.ofList (source.toList.take p)) = .ok tokens) ∨
    ∃ tokens, scan source = .ok tokens ∧ (∀ t ∈ tokens, Scanned source.toList t.span.start) ∧
      ∀ p d, Scanned source.toList p → ¬ Stuck source.toList p d := by
  rcases stuck_of_scanFrom 0 1 [] source.toList rfl rfl .start (List.forall_mem_nil _) with
    ⟨d, p, hscan, hp, hs⟩ | ⟨tokens, hscan, htokens⟩
  · obtain ⟨c, hc, hmessage⟩ := hs.message_eq
    refine .inl ⟨d, p, hscan, hp, hs, ⟨c, hc, hmessage⟩, fun digits => hmessage ▸ stuckMessage_ne c digits, ?_⟩
    obtain ⟨done, hfront⟩ := (hp.take (Nat.le_refl p)).scanFrom_eq
    rw [List.drop_eq_nil_of_le (List.length_take_le _ _), scanFrom] at hfront
    rw [scan, String.toList_ofList]
    exact ⟨_, hfront⟩
  · refine .inr ⟨tokens, hscan, htokens, fun p d hp hs => ?_⟩
    obtain ⟨done, hfront⟩ := hp.scanFrom_eq
    rw [hs.scanFrom_eq] at hfront
    cases hscan.symm.trans hfront

/-- A comment with a quote in it, and behind it a string that goes over the end of its line and never ends. -/
def openQuote : String := "a; # \"\n'b\nc"

/-- The fault is at the quote behind the comment, on the second line, though the text ends on the third. -/
theorem scan_stuck_openQuote : ∃ d, scan openQuote = .error d ∧ d.span = some ⟨7, 11, 2⟩ ∧
    (∃ p, Scanned openQuote.toList p ∧ Stuck openQuote.toList p d) ∧ d.message = "Unterminated string" := by
  have hscan : scan openQuote = .error (.lexical ⟨7, 11, 2⟩ (.unterminated '\'')) := (scan_eq_scanWithin _).trans rfl
  rcases scan_stuck_or_ok openQuote with ⟨d, p, hd, hp, hs, -⟩ | ⟨tokens, hok, -⟩
  · obtain rfl := Except.error.inj (hscan.symm.trans hd)
    exact ⟨_, hscan, rfl, ⟨p, hp, hs⟩, rfl⟩
  · cases hscan.symm.trans hok

end StepScript
