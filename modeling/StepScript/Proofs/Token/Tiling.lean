import Mathlib.Data.List.Chain
import Mathlib.Data.List.TakeWhile
import StepScript.Proofs.Grammar.Scanning
import StepScript.Text.Slice

/-!
# Tokens tile their text

The tokens of a text stand in it side by side, in order, each one spelled by the characters of its span and on the line
that its span says, and what lies between them is blank or a comment (`scan_tiles`).

A text is scanned from its front: `Laid front rest tokens` says of the part that is still ahead, behind the characters
`front`, that it is made of gaps and of the tokens, one after the other. One item more of the text keeps it, be it
skipped or a token, and everything about positions is read off it in the end.
-/

namespace StepScript

/-- Characters in front of `rest` that stand for nothing: blanks, and comments that run to the end of their line or of
the text. -/
inductive Gap : (gap rest : List Char) → Prop
  | nil (rest : List Char) : Gap [] rest
  | blank {c : Char} {gap rest : List Char} : c ∈ [' ', '\t', '\r', '\n'] → Gap gap rest → Gap (c :: gap) rest
  | comment {body gap rest : List Char} : '\n' ∉ body → (∀ c ∈ (gap ++ rest).head?, c = '\n') → Gap gap rest →
      Gap ('#' :: (body ++ gap)) rest

/-- **The tokens tile the text.** -/
structure Tiles (text : List Char) (tokens : List Token) : Prop where
  /-- The last token is the end of the text, and no other one is empty or the end. -/
  finish : ∃ body line, tokens = body ++ [.eof ⟨text.length, text.length, line⟩] ∧
    ∀ t ∈ body, t.kind ≠ .eof ∧ t.lexeme ≠ ""
  /-- Tokens are in order and do not overlap. -/
  ordered : tokens.Pairwise fun a b => a.span.stop ≤ b.span.start
  /-- A token is spelled by the characters of its span. -/
  spelled : ∀ t ∈ tokens, t.span.start ≤ t.span.stop ∧ t.span.stop ≤ text.length ∧
    t.lexeme.toList = Text.between text t.span.start t.span.stop
  /-- Nothing but a gap stands before the first token. -/
  before : ∀ t ∈ tokens.head?, Gap (text.take t.span.start) (text.drop t.span.start)
  /-- Nothing but a gap stands between a token and the next one, be it the end. -/
  between : tokens.IsChain fun a b => Gap (Text.between text a.span.stop b.span.start) (text.drop b.span.start)
  /-- A token is on the line that it starts on. -/
  lines : ∀ t ∈ tokens, t.span.line = 1 + (text.take t.span.start).count '\n'

/-! ## Gaps -/

/-- One gap behind another is a gap. -/
theorem Gap.append {gap more rest : List Char} (h : Gap gap (more ++ rest)) (hm : Gap more rest) :
    Gap (gap ++ more) rest := by
  generalize hr : more ++ rest = ahead at h
  induction h with
  | nil => exact hm
  | blank hc _ ih => exact .blank hc (ih hr)
  | comment hb hn _ ih =>
    subst hr
    rw [List.cons_append, List.append_assoc]
    exact .comment hb (by rwa [List.append_assoc]) (ih rfl)

theorem Gap.single {c : Char} {rest : List Char} (h : c ∈ [' ', '\t', '\r', '\n']) : Gap [c] rest :=
  .blank h (.nil rest)

/-- As many characters as fit, and the rest. -/
theorem split_takeWhile {p : Char → Bool} : ∀ cs : List Char, cs.take (cs.takeWhile p).length = cs.takeWhile p ∧
    cs.drop (cs.takeWhile p).length = cs.dropWhile p
  | [] => ⟨rfl, rfl⟩
  | c :: cs => by
    have ih := split_takeWhile (p := p) cs
    by_cases hc : p c = true
    · simp [hc, ih]
    · simp [hc]

/-- A comment takes all of its line. -/
theorem Gap.comment_line (rest : List Char) : Gap ('#' :: rest.take (rest.takeWhile (· != '\n')).length)
    (rest.drop (rest.takeWhile (· != '\n')).length) := by
  obtain ⟨htake, hdrop⟩ := split_takeWhile (p := (· != '\n')) rest
  rw [htake, hdrop, ← List.append_nil (rest.takeWhile _)]
  refine .comment (fun hm => ?_) (fun c hc => ?_) (.nil _)
  · simpa using List.mem_takeWhile_imp hm
  · have hstop := List.head?_dropWhile_not (· != '\n') rest
    rw [List.nil_append] at hc
    rw [hc] at hstop
    simpa using hstop

/-! ## Items -/

theorem signWithEqual_shape (short long : TokenKind) (rest : List Char) :
    (signWithEqual short long rest).shape = .sign short ∨ (signWithEqual short long rest).shape = .sign long := by
  unfold signWithEqual
  split
  · exact Or.inr rfl
  · exact Or.inl rfl

/-- An item is no end, and one that is skipped is a gap. -/
theorem scanItem_shape {c : Char} {rest : List Char} {item : Item} (h : scanItem c rest = .ok item) :
    (item.shape = .skipped → Gap (c :: rest.take item.extra) (rest.drop item.extra)) ∧ item.shape ≠ .sign .eof := by
  unfold scanItem at h
  split at h
  case h_14 | h_15 | h_16 | h_17 =>
    cases h
    rcases signWithEqual_shape _ _ rest with hs | hs <;> rw [hs] <;> constructor <;> intro h <;> cases h
  case h_18 => cases h; exact ⟨fun _ => .comment_line rest, fun hs => by cases hs⟩
  case h_19 | h_20 | h_21 | h_22 => cases h; exact ⟨fun _ => .single (by decide), fun hs => by cases hs⟩
  case h_23 =>
    split at h
    · dsimp only at h
      split at h <;> cases h
      constructor <;> intro hs <;> cases hs
    · split at h
      · cases h; constructor <;> intro hs <;> cases hs
      · split at h <;> cases h
        constructor <;> intro hs <;> cases hs
  all_goals cases h; constructor <;> intro hs <;> cases hs

theorem lineBreaks_append (cs ds : List Char) : lineBreaks (cs ++ ds) = lineBreaks cs + lineBreaks ds :=
  List.count_append

theorem wordKind_ne_eof (word : String) : wordKind word ≠ .eof := by
  have hkeywords : ∀ k ∈ keywords.map Prod.snd, k ≠ .eof := by decide
  unfold wordKind
  cases hk : keywords.lookup word with
  | none => exact fun h => by cases h
  | some k =>
    refine hkeywords k (List.mem_map.2 ⟨(word, k), ?_, rfl⟩)
    obtain ⟨front, behind, hl, -⟩ := List.lookup_eq_some_iff.1 hk
    simp [hl]

/-- The token is spelled by `text` and stands behind `front`. -/
structure Stands (t : Token) (front text : List Char) : Prop where
  kind : t.kind ≠ .eof
  nonempty : text ≠ []
  lexeme : t.lexeme.toList = text
  span : t.span = ⟨front.length, (front ++ text).length, 1 + lineBreaks front⟩

theorem stands_of_token {c : Char} {cs front : List Char} {item : Item} {t : Token} (h : scanItem c cs = .ok item)
    (ht : Item.token? item.shape (c :: cs.take item.extra)
      ⟨front.length, (front ++ c :: cs.take item.extra).length, 1 + lineBreaks front⟩ = some t) :
    Stands t front (c :: cs.take item.extra) := by
  have hshape := (scanItem_shape h).2
  cases hs : item.shape with
  | skipped =>
    rw [hs] at ht
    cases ht
  | sign kind =>
    rw [hs] at ht hshape
    cases ht
    exact ⟨fun hk => hshape (congrArg _ hk), List.cons_ne_nil _ _, String.toList_ofList, rfl⟩
  | word =>
    rw [hs] at ht
    cases ht
    exact ⟨wordKind_ne_eof _, List.cons_ne_nil _ _, String.toList_ofList, rfl⟩
  | number =>
    rw [hs] at ht
    cases ht
    exact ⟨(fun hk => by cases hk), List.cons_ne_nil _ _, String.toList_ofList, rfl⟩
  | string =>
    rw [hs] at ht
    cases ht
    exact ⟨(fun hk => by cases hk), List.cons_ne_nil _ _, String.toList_ofList, rfl⟩

/-! ## From item to item -/

/-- Behind `front`, the text goes on with the tokens, each one behind a gap, up to the end. -/
inductive Laid : (front rest : List Char) → List Token → Prop
  | finish {front gap : List Char} : Gap gap [] →
      Laid front gap [.eof ⟨(front ++ gap).length, (front ++ gap).length, 1 + lineBreaks (front ++ gap)⟩]
  | token {front gap text rest : List Char} {t : Token} {tokens : List Token} : Gap gap (text ++ rest) →
      Stands t (front ++ gap) text → Laid (front ++ (gap ++ text)) rest tokens →
      Laid front (gap ++ (text ++ rest)) (t :: tokens)

/-- A gap before the first token goes with the gap that is there. -/
theorem Laid.skip {front gap rest : List Char} {tokens : List Token} (hg : Gap gap rest)
    (h : Laid (front ++ gap) rest tokens) : Laid front (gap ++ rest) tokens := by
  cases h with
  | finish hg' =>
    rw [List.append_assoc]
    exact .finish (.append (by rwa [List.append_nil]) hg')
  | @token _ gap' text rest t tokens hg' ht h =>
    rw [← List.append_assoc]
    refine .token (hg.append hg') (by rwa [← List.append_assoc]) ?_
    rwa [List.append_assoc, ← List.append_assoc gap]  at h

/-- What is scanned is laid out in the text, item by item. -/
theorem laid_of_scanFrom {tokens : List Token} (pos line : Nat) (done : List Token) (rest : List Char)
    (h : scanFrom pos line done rest = .ok tokens) : ∀ front : List Char, pos = front.length →
      line = 1 + lineBreaks front → ∃ more, tokens = done.reverse ++ more ∧ Laid front rest more := by
  fun_induction scanFrom pos line done rest with
  | case1 pos line done =>
    intro front hp hl
    cases h
    refine ⟨[.eof ⟨pos, pos, line⟩], by simp, ?_⟩
    have hlaid := @Laid.finish front [] (.nil [])
    rwa [List.append_nil, ← hp, ← hl] at hlaid
  | case2 => cases h
  | case3 pos line done c cs item hitem text next done' ih =>
    intro front hp hl
    have htext : c :: cs = text ++ cs.drop item.extra := by
      rw [List.cons_append, List.take_append_drop]
    have hnext : next = (front ++ text).length := by rw [List.length_append, ← hp]
    have hline : line + lineBreaks text = 1 + lineBreaks (front ++ text) := by
      rw [lineBreaks_append, hl, Nat.add_assoc]
    obtain ⟨more, hmore, hlaid⟩ := ih h (front ++ text) hnext hline
    rw [htext]
    -- An item that makes no token goes to the gap before the next one.
    cases ht : Item.token? item.shape text ⟨pos, next, line⟩ with
    | none =>
      have hd : done' = done := by simp only [done', ht]
      refine ⟨more, by rw [hmore, hd], .skip ((scanItem_shape hitem).1 ?_) hlaid⟩
      cases hs : item.shape <;> rw [hs] at ht <;> cases ht
    | some t =>
      have hd : done' = t :: done := by simp only [done', ht]
      rw [hp, hnext, hl] at ht
      refine ⟨t :: more, by simp [hmore, hd], ?_⟩
      exact @Laid.token front [] text _ t more (.nil _) (by rw [List.append_nil]; exact stands_of_token hitem ht) hlaid

/-- The tokens of a text are laid out in it from its start. -/
theorem laid_of_scan {source : String} {tokens : List Token} (h : scan source = .ok tokens) :
    Laid [] source.toList tokens := by
  obtain ⟨more, hmore, hlaid⟩ := laid_of_scanFrom 0 1 [] source.toList h [] rfl rfl
  rw [List.reverse_nil, List.nil_append] at hmore
  subst hmore
  exact hlaid

/-! ## Positions -/

/-- The characters behind `front` and before `rest`. -/
theorem between_append (front text rest : List Char) :
    Text.between (front ++ (text ++ rest)) front.length (front ++ text).length = text := by
  have hle : front.length ≤ (front ++ text).length := by simp
  rw [Text.between, Nat.max_eq_right hle, Nat.min_eq_left hle, ← List.append_assoc, List.take_left, List.drop_left]

theorem between_finish (front gap : List Char) :
    Text.between (front ++ gap) front.length (front ++ gap).length = gap := by
  simpa using between_append front gap []

namespace Laid

variable {front rest : List Char} {tokens : List Token}

theorem finish_eq (h : Laid front rest tokens) : ∃ body line,
    tokens = body ++ [.eof ⟨(front ++ rest).length, (front ++ rest).length, line⟩] ∧
      ∀ t ∈ body, t.kind ≠ .eof ∧ t.lexeme ≠ "" := by
  induction h with
  | finish _ => exact ⟨[], _, rfl, List.forall_mem_nil _⟩
  | @token front gap text rest t tokens _ ht _ ih =>
    obtain ⟨body, line, hb, hbody⟩ := ih
    rw [List.append_assoc, List.append_assoc] at hb
    refine ⟨t :: body, line, congrArg (t :: ·) hb, List.forall_mem_cons.2 ⟨⟨ht.kind, fun hl => ?_⟩, hbody⟩⟩
    have hlexeme := ht.lexeme
    rw [hl] at hlexeme
    exact ht.nonempty hlexeme.symm

theorem within (h : Laid front rest tokens) : ∀ t ∈ tokens,
    front.length ≤ t.span.start ∧ t.span.start ≤ t.span.stop ∧ t.span.stop ≤ (front ++ rest).length := by
  induction h with
  | finish _ =>
    simp only [List.mem_singleton, forall_eq, Token.eof, List.length_append]
    omega
  | token _ ht _ ih =>
    refine List.forall_mem_cons.2 ⟨?_, fun u hu => ?_⟩
    · rw [ht.span]
      simp only [List.length_append]
      omega
    · have hu := ih u hu
      simp only [List.length_append] at hu ⊢
      omega

theorem ordered (h : Laid front rest tokens) : tokens.Pairwise fun a b => a.span.stop ≤ b.span.start := by
  induction h with
  | finish _ => exact List.pairwise_singleton _ _
  | token _ ht h ih =>
    refine List.pairwise_cons.2 ⟨fun u hu => ?_, ih⟩
    rw [ht.span, List.append_assoc]
    exact (h.within u hu).1

theorem spelled (h : Laid front rest tokens) :
    ∀ t ∈ tokens, t.lexeme.toList = Text.between (front ++ rest) t.span.start t.span.stop := by
  induction h with
  | finish _ => simp [Token.eof, Text.between]
  | @token front gap text rest t tokens _ ht _ ih =>
    have hassoc : front ++ (gap ++ (text ++ rest)) = front ++ gap ++ (text ++ rest) := by rw [List.append_assoc]
    refine List.forall_mem_cons.2 ⟨?_, fun u hu => ?_⟩
    · rw [ht.lexeme, ht.span, hassoc, between_append]
    · rw [ih u hu, List.append_assoc, List.append_assoc]

/-- Before the first token there is a gap. -/
theorem gap_before (h : Laid front rest tokens) : ∀ t ∈ tokens.head?,
    Gap (Text.between (front ++ rest) front.length t.span.start) ((front ++ rest).drop t.span.start) := by
  cases h with
  | finish hg =>
    rintro _ ⟨⟩
    simpa only [Token.eof, between_finish, List.drop_length] using hg
  | @token _ gap text rest t tokens hg ht _ =>
    rintro _ ⟨⟩
    rw [ht.span, between_append, ← List.append_assoc, List.drop_left]
    exact hg

theorem gap_between (h : Laid front rest tokens) : tokens.IsChain fun a b =>
    Gap (Text.between (front ++ rest) a.span.stop b.span.start) ((front ++ rest).drop b.span.start) := by
  induction h with
  | finish _ => exact List.isChain_singleton _
  | @token front gap text rest t tokens _ ht h ih =>
    have hassoc : front ++ (gap ++ text) ++ rest = front ++ (gap ++ (text ++ rest)) := by simp
    rw [hassoc] at ih
    refine List.isChain_cons.2 ⟨fun u hu => ?_, ih⟩
    have hgap := h.gap_before u hu
    rw [hassoc] at hgap
    rwa [ht.span, List.append_assoc]

theorem lines (h : Laid front rest tokens) :
    ∀ t ∈ tokens, t.span.line = 1 + ((front ++ rest).take t.span.start).count '\n' := by
  induction h with
  | finish _ =>
    simp only [List.mem_singleton, forall_eq, Token.eof, List.take_length]
    rfl
  | @token front gap text rest t tokens _ ht _ ih =>
    refine List.forall_mem_cons.2 ⟨?_, fun u hu => ?_⟩
    · rw [ht.span, ← List.append_assoc, List.take_left]
      rfl
    · rw [ih u hu, List.append_assoc, List.append_assoc]

/-- Only the end is empty. -/
theorem start_lt_stop (h : Laid front rest tokens) : ∀ t ∈ tokens, t.isEof = false → t.span.start < t.span.stop := by
  induction h with
  | finish _ => simp [Token.eof, Token.isEof]
  | token _ ht _ ih =>
    refine List.forall_mem_cons.2 ⟨fun _ => ?_, ih⟩
    rw [ht.span]
    simp only [List.length_append]
    have := List.length_pos_iff.2 ht.nonempty
    omega

end Laid

/-- **Tokens tile their text.** The tokens of a text that is scanned are in order and do not overlap; each one is
spelled by the characters of its span, and none but the last one, which is the end of the text, is empty; between them,
before the first one and before the end there are only blanks and comments; and each one is on the line that its span
says, counted by the line breaks before it. -/
theorem scan_tiles {source : String} {tokens : List Token} (h : scan source = .ok tokens) :
    Tiles source.toList tokens := by
  obtain ⟨more, hmore, hlaid⟩ := laid_of_scanFrom 0 1 [] source.toList h [] rfl rfl
  rw [List.reverse_nil, List.nil_append] at hmore
  subst hmore
  refine ⟨hlaid.finish_eq, hlaid.ordered, fun t ht => ⟨(hlaid.within t ht).2.1, (hlaid.within t ht).2.2,
    hlaid.spelled t ht⟩, fun t ht => ?_, hlaid.gap_between, hlaid.lines⟩
  have hgap := hlaid.gap_before t ht
  simpa [Text.between] using hgap

/-- A text with a comment and a string that goes over two lines. -/
def stringOverLines : String := "a # b\n\"c\nd\"; e"

/-- The name behind the string is on the third line. -/
theorem scan_tiles_stringOverLines : ∃ tokens, scan stringOverLines = .ok tokens ∧
    Tiles stringOverLines.toList tokens ∧ tokens.map (·.span.line) = [1, 2, 3, 3, 3] := by
  obtain ⟨tokens, h, hlines⟩ : ∃ tokens, scan stringOverLines = .ok tokens ∧
      tokens.map (·.span.line) = [1, 2, 3, 3, 3] := ⟨_, (scan_eq_scanWithin _).trans rfl, rfl⟩
  exact ⟨tokens, h, scan_tiles h, hlines⟩

end StepScript
