import StepScript.Proofs.Grammar.Closing
import StepScript.Proofs.Grammar.Soundness
import StepScript.Proofs.Token.Faults
import StepScript.Terminal.Process

/-!
# Completed lines

At the prompt a semicolon is put behind a line that ends in none, unless it ends in a brace. A line that is a program
already stays the program that it is (`compile_completeLine`): the last token of a program is a semicolon or a closing
brace (`Passage.closed`), so if the line ends in something else, then within a comment, which goes on over the
semicolon.

A text that ends within a comment is made of items and of that comment (`Unfinished`). An item before the end does not
depend on a semicolon behind the text, so both texts are scanned to the same tokens (`Unfinished.scanFrom_concat`).
-/

namespace StepScript

/-! ## Texts that end within a comment -/

/-- Items, and a comment that is not ended. -/
inductive Unfinished : List Char → Prop
  | comment {body : List Char} : '\n' ∉ body → Unfinished ('#' :: body)
  | item {c : Char} {cs : List Char} {item : Item} : scanItem c cs = .ok item → Unfinished (cs.drop item.extra) →
      Unfinished (c :: cs)

theorem Unfinished.ne_nil {cs : List Char} (h : Unfinished cs) : cs ≠ [] := by
  cases h <;> exact List.cons_ne_nil _ _

section Semicolon

variable {cs : List Char}

/-- A class without the semicolon ends before one. -/
theorem takeWhile_concat {p : Char → Bool} (hp : p ';' = false) : (cs ++ [';']).takeWhile p = cs.takeWhile p := by
  induction cs with
  | nil => simp [hp]
  | cons c cs ih => simp only [List.cons_append, List.takeWhile_cons, ih]

/-- A character that occurs, occurs before anything behind. -/
theorem takeWhile_append_of_lt {p : Char → Bool} (h : (cs.takeWhile p).length < cs.length) (more : List Char) :
    (cs ++ more).takeWhile p = cs.takeWhile p := by
  rw [List.takeWhile_append, if_neg (Nat.ne_of_lt h)]

theorem fractionLength_concat (rest : List Char) : fractionLength (rest ++ [';']) = fractionLength rest := by
  match rest with
  | [] => rfl
  | [c] =>
    by_cases hc : c = '.'
    · subst hc; rfl
    · unfold fractionLength
      split <;> split <;> simp_all
  | c :: d :: ds =>
    by_cases hc : c = '.'
    · subst hc
      simp only [List.cons_append, fractionLength, takeWhile_concat (p := Number.isDigit) (by decide)]
    · unfold fractionLength
      split <;> split <;> simp_all

theorem numberExtra_concat : numberExtra (cs ++ [';']) = numberExtra cs := by
  have hwhole : (cs ++ [';']).takeWhile Number.isDigit = cs.takeWhile Number.isDigit := takeWhile_concat (by decide)
  have hle : (cs.takeWhile Number.isDigit).length ≤ cs.length := (List.takeWhile_prefix _).length_le
  rw [numberExtra, numberExtra, hwhole, List.drop_append_of_le_length hle, fractionLength_concat]

theorem signWithEqual_concat (short long : TokenKind) (h : cs ≠ []) :
    signWithEqual short long (cs ++ [';']) = signWithEqual short long cs := by
  obtain ⟨c, cs, rfl⟩ := List.exists_cons_of_ne_nil h
  unfold signWithEqual
  split <;> split <;> simp_all

/-- **An item before the end of a text does not depend on a semicolon behind it.** -/
theorem scanItem_concat {c : Char} {item : Item} (h : scanItem c cs = .ok item) (hlt : item.extra < cs.length) :
    scanItem c (cs ++ [';']) = .ok item := by
  have hne : cs ≠ [] := List.ne_nil_of_length_pos (by omega)
  unfold scanItem at h ⊢
  split at h
  case h_14 | h_15 | h_16 | h_17 => simpa only [signWithEqual_concat _ _ hne] using h
  case h_18 =>
    cases h
    rw [takeWhile_append_of_lt hlt]
  case h_23 =>
    split at h
    · rename_i hq
      rw [if_pos hq]
      dsimp only at h ⊢
      split at h
      · cases h
      · cases h
        have hlt : (cs.takeWhile (· != c)).length < cs.length := by simp only at hlt; omega
        rw [takeWhile_append_of_lt hlt, List.drop_append_of_le_length (Nat.le_of_lt hlt)]
        cases hd : cs.drop (cs.takeWhile (· != c)).length <;> rfl
    · rename_i hq
      rw [if_neg hq]
      simpa only [numberExtra_concat, takeWhile_concat (p := isWordPart) (by decide)] using h
  all_goals exact h

end Semicolon

/-- **A comment that is not ended goes on over a semicolon**: the tokens are the same, up to where the text ends. -/
theorem Unfinished.scanFrom_concat {rest : List Char} (h : Unfinished rest) : ∀ {pos line : Nat}
    {done tokens : List Token}, scanFrom pos line done rest = .ok tokens → ∃ body finish finish',
      tokens = body ++ [.eof finish] ∧ scanFrom pos line done (rest ++ [';']) = .ok (body ++ [.eof finish']) := by
  induction h with
  | @comment body hb =>
    intro pos line done tokens h
    have hcomment : ∀ {body : List Char}, '\n' ∉ body → scanFrom pos line done ('#' :: body) =
        .ok (done.reverse ++ [.eof ⟨pos + (body.length + 1), pos + (body.length + 1), line + lineBreaks ('#' :: body)⟩]) := by
      intro body hb
      have hgap : Gap ('#' :: (body ++ [])) [] := .comment hb nofun (.nil [])
      rw [List.append_nil] at hgap
      have hscan := scanFrom_gap (p := pos) hgap line done
      rw [List.append_nil] at hscan
      rw [hscan, scanFrom, List.reverse_cons]
      rfl
    have hmore : '\n' ∉ body ++ [';'] := by simpa using hb
    obtain rfl := Except.ok.inj ((hcomment hb).symm.trans h)
    exact ⟨done.reverse, _, _, rfl, hcomment hmore⟩
  | @item c cs item hitem hrest ih =>
    intro pos line done tokens h
    have hlt : item.extra < cs.length := Nat.lt_of_not_le fun hle => hrest.ne_nil (List.drop_eq_nil_of_le hle)
    have htake : (cs ++ [';']).take item.extra = cs.take item.extra := List.take_append_of_le_length (Nat.le_of_lt hlt)
    have hdrop : (cs ++ [';']).drop item.extra = cs.drop item.extra ++ [';'] :=
      List.drop_append_of_le_length (Nat.le_of_lt hlt)
    rw [scanFrom, hitem] at h
    obtain ⟨body, finish, finish', htokens, hscan⟩ := ih h
    refine ⟨body, finish, finish', htokens, ?_⟩
    rw [List.cons_append, scanFrom, scanItem_concat hitem hlt]
    simpa only [htake, hdrop] using hscan

/-- What is skipped is one blank, or a comment up to the end of its line. -/
theorem scanItem_skipped {c : Char} {cs : List Char} {item : Item} (h : scanItem c cs = .ok item)
    (hs : item.shape = .skipped) : (c ∈ [' ', '\t', '\r', '\n'] ∧ item.extra = 0) ∨ c = '#' := by
  unfold scanItem at h
  split at h
  case h_14 | h_15 | h_16 | h_17 =>
    cases h
    rcases signWithEqual_shape _ _ cs with he | he <;> rw [hs] at he <;> cases he
  case h_18 => exact .inr rfl
  case h_19 | h_20 | h_21 | h_22 => cases h; exact .inl ⟨by decide, rfl⟩
  case h_23 =>
    split at h
    · dsimp only at h
      split at h <;> cases h
      cases hs
    · split at h
      · cases h; cases hs
      · split at h <;> cases h
        cases hs
  all_goals cases h; cases hs

/-- What the end of a line may be. -/
inductive EndsIn (rest : List Char) (tokens : List Token) : Prop
  | nothing : rest = [] → EndsIn rest tokens
  | blank : (∃ c ∈ rest.getLast?, c ∈ [' ', '\t', '\r', '\n']) → EndsIn rest tokens
  | comment : Unfinished rest → EndsIn rest tokens
  | token : (∃ t ∈ tokens.dropLast.getLast?, t.lexeme.toList.getLast? = rest.getLast?) → EndsIn rest tokens

theorem getLast?_drop {cs : List Char} (c : Char) {k : Nat} (h : cs.drop k ≠ []) :
    (cs.drop k).getLast? = (c :: cs).getLast? := by
  have hlt : k < cs.length := Nat.lt_of_not_le fun hle => h (List.drop_eq_nil_of_le hle)
  rw [List.getLast?_drop, if_neg (by omega)]
  cases cs with
  | nil => cases hlt
  | cons d cs => rw [List.getLast?_cons_cons]

/-- **A line ends** in a blank, in a comment or in its last token. -/
theorem endsIn_of_scanFrom {tokens : List Token} (pos line : Nat) (done : List Token) (rest : List Char)
    (h : scanFrom pos line done rest = .ok tokens) (hline : '\n' ∉ rest) : EndsIn rest tokens := by
  fun_induction scanFrom pos line done rest with
  | case1 => exact .nothing rfl
  | case2 => cases h
  | case3 pos line done c cs item hitem text next done' ih =>
    have hbehind := ih h fun hm => hline (List.mem_cons_of_mem c (List.mem_of_mem_drop hm))
    by_cases hend : cs.drop item.extra = []
    · -- The item is the last one.
      have htext : text = c :: cs := congrArg (c :: ·) (List.take_of_length_le (List.drop_eq_nil_iff.1 hend))
      cases htoken : Item.token? item.shape text ⟨pos, next, line⟩ with
      | none =>
        have hs : item.shape = .skipped := by
          cases hs : item.shape <;> rw [hs] at htoken <;> cases htoken
        rcases scanItem_skipped hitem hs with ⟨hc, he⟩ | rfl
        · rw [he, List.drop_zero] at hend
          subst hend
          exact .blank ⟨c, rfl, hc⟩
        · exact .comment (.comment fun hm => hline (List.mem_cons_of_mem _ hm))
      | some t =>
        have hd : done' = t :: done := by simp only [done', htoken]
        rw [hend, scanFrom, hd] at h
        obtain rfl := Except.ok.inj h
        refine .token ⟨t, by simp, ?_⟩
        rw [(token?_lexeme htoken).1, String.toList_ofList, htext]
    · cases hbehind with
      | nothing hn => exact absurd hn hend
      | blank hb => exact .blank (getLast?_drop c hend ▸ hb)
      | comment hc => exact .comment (.item hitem hc)
      | token ht => exact .token (getLast?_drop c hend ▸ ht)

/-! ## The last token of a program -/

namespace Grammar

/-- The tokens end in a semicolon or a closing brace. -/
def Closed (ts : List Token) : Prop := ∃ front t, ts = front ++ [t] ∧ (t.kind = .semicolon ∨ t.kind = .rightBrace)

theorem Closed.behind {ts : List Token} (h : Closed ts) (front : List Token) : Closed (front ++ ts) := by
  obtain ⟨body, t, rfl, ht⟩ := h
  exact ⟨front ++ body, t, (List.append_assoc front body [t]).symm, ht⟩

theorem Closed.cons {ts : List Token} (h : Closed ts) (t : Token) : Closed (t :: ts) := h.behind [t]

theorem closed_semicolon {t : Token} (h : t.kind = .semicolon) : Closed [t] := ⟨[], t, rfl, .inl h⟩

theorem closed_brace {t : Token} (h : t.kind = .rightBrace) : Closed [t] := ⟨[], t, rfl, .inr h⟩

/-- A statement ends in its own last token, or in that of its last part. -/
theorem Sentence.closed : ∀ {o : Ending} {ts : List Token} {s : Stmt}, Sentence o ts s → Closed ts
  | _, _, _, .effect _ _ _ hc => (closed_semicolon hc).behind _
  | _, _, _, .leave _ _ _ hc => ((closed_semicolon hc).behind _).cons _
  | _, _, _, .print _ _ _ _ _ hc | _, _, _, .printLine _ _ _ _ _ hc | _, _, _, .input _ _ _ _ _ hc =>
    ((((closed_semicolon hc).cons _).behind _).cons _).cons _
  | _, _, _, .block _ _ _ hc => ((closed_brace hc).behind _).cons _
  | _, _, _, .branch _ _ _ _ _ hy => (((hy.closed.cons _).behind _).cons _).cons _
  | _, _, _, .branchElse _ _ _ _ _ _ _ hn =>
    (((((hn.closed.cons _).behind _).cons _).behind _).cons _).cons _
  | _, _, _, .loop _ _ _ _ _ hb => (((hb.closed.cons _).behind _).cons _).cons _
  | _, _, _, .forLoop _ _ _ _ _ _ _ _ hb _ _ _ =>
    ((((((hb.closed.cons _).behind _).cons _).behind _).behind _).cons _).cons _

theorem Declares.closed {ts : List Token} {s : Stmt} (h : Declares ts s) : Closed ts := by
  cases h with
  | function _ _ _ _ _ _ _ _ _ hc =>
    exact (((((((closed_brace hc).behind _).cons _).cons _).behind _).cons _).cons _).cons _
  | statement hs => exact hs.closed

/-- **The last token of a program is a semicolon or a closing brace.** -/
theorem Passage.closed : ∀ {ts : List Token} {ss : List Stmt}, Passage ts ss → ts = [] ∨ Closed ts
  | _, _, .cons hd hp => by
    rcases hp.closed with rfl | h
    · rw [List.append_nil]
      exact .inr hd.closed
    · exact .inr (h.behind _)
  | _, _, .nil => .inl rfl

end Grammar

/-- Only the signs themselves are of their kinds. -/
theorem Lexeme.closing {cs : List Char} {kind : TokenKind} {payload : Option Payload} (h : Lexeme cs kind payload)
    (hk : kind = .semicolon ∨ kind = .rightBrace) : cs = [';'] ∨ cs = ['}'] := by
  have hkeywords : ∀ e ∈ keywords, e.2 ≠ .semicolon ∧ e.2 ≠ .rightBrace := by decide
  have hsigns : ∀ e ∈ signs, e.2 = .semicolon ∨ e.2 = .rightBrace → e.1 = [';'] ∨ e.1 = ['}'] := by decide
  cases h with
  | sign hs => exact hsigns _ hs hk
  | word _ _ hm =>
    exfalso
    cases hm with
    | keyword he => exact hk.elim (hkeywords _ he).1 (hkeywords _ he).2
    | identifier => rcases hk with hk | hk <;> cases hk
  | whole | fraction | string => rcases hk with hk | hk <;> cases hk

/-! ## Completion -/

/-- A text that is trimmed does not end in a blank. -/
theorem not_isBlank_of_trim {cs : List Char} (h : Text.trim cs = cs) : ∀ c ∈ cs.getLast?, Text.isBlank c = false := by
  intro c hc
  rw [← h, Text.trim, List.getLast?_reverse, Text.trimStart] at hc
  have hhead := List.head?_dropWhile_not Text.isBlank (Text.trimStart cs).reverse
  rw [hc] at hhead
  simpa using hhead

namespace Terminal.Process

/-- What is completed ends in a semicolon or a brace already, or has a semicolon put behind it. -/
theorem completeLine_cases (line : String) : completeLine line =
    if [';'] <:+ line.toList ∨ ['}'] <:+ line.toList then line else String.ofList (line.toList ++ [';']) := by
  have hends : ∀ sign : String, line.endsWith sign = true ↔ sign.toList <:+ line.toList := fun sign => by
    rw [String.endsWith_eq_endsWith_toSlice, String.Slice.endsWith_string_iff, String.copy_toSlice]
  have hend : (line.endsWith ";" || line.endsWith "\x7d") = true ↔ [';'] <:+ line.toList ∨ ['}'] <:+ line.toList := by
    rw [Bool.or_eq_true, hends, hends]
    rfl
  unfold completeLine
  simp only [hend]
  split
  · rfl
  · rw [String.ofList_append, String.ofList_toList]

/-- **Completing a line does not change a program.** A line that is not empty, is trimmed and has no line break in it is
completed to a line that compiles to the same program, spans included, if it compiles itself: it is left as it is, or it
ends within a comment. -/
theorem compile_completeLine {line : String} {program : Program} (hne : line ≠ "")
    (htrim : Text.trim line.toList = line.toList) (hline : '\n' ∉ line.toList) (h : compile line = .ok program) :
    compile (completeLine line) = .ok program := by
  cases hscan : scan line with
  | error d =>
    rw [compile, hscan] at h
    cases h
  | ok tokens =>
    have hparse : Grammar.parse tokens = .ok program := by rwa [compile_of_scan hscan] at h
    rw [completeLine_cases]
    split
    · exact h
    · rename_i hends
      cases endsIn_of_scanFrom 0 1 [] line.toList hscan hline with
      | nothing hnil => exact absurd (String.toList_eq_nil_iff.1 hnil) hne
      | blank hb =>
        obtain ⟨c, hc, hblank⟩ := hb
        have hblanks : [' ', '\t', '\r', '\n'].all Text.isBlank = true := by decide
        cases (List.all_eq_true.1 hblanks c hblank).symm.trans (not_isBlank_of_trim htrim c hc)
      | comment hc =>
        obtain ⟨body, finish, finish', rfl, hmore⟩ := hc.scanFrom_concat hscan
        have hcompleted : scan (String.ofList (line.toList ++ [';'])) = .ok (body ++ [.eof finish']) := by
          rw [scan, String.toList_ofList]
          exact hmore
        rw [compile_of_scan hcompleted, ← hparse]
        refine (Grammar.parse_of_ahead ?_).1
        rw [List.takeWhile_append, List.takeWhile_append]
        rfl
      | token ht =>
        -- The last token is a semicolon or a brace, and the line ends in it.
        obtain ⟨t, ht, hlast⟩ := ht
        have hpassage := Grammar.parse_in_grammar hparse
        rw [Grammar.ahead_eq_dropLast hscan] at hpassage
        have hclosing : t.lexeme.toList = [';'] ∨ t.lexeme.toList = ['}'] := by
          obtain ⟨body, finish, rfl, hlongest⟩ := scan_longest hscan
          rw [List.dropLast_concat] at ht hpassage
          rcases hpassage.closed with rfl | ⟨front, u, rfl, hu⟩
          · cases ht
          · rw [List.getLast?_concat] at ht
            cases ht
            exact (hlongest t (by simp)).lexeme.closing hu
        refine absurd ?_ hends
        rcases hclosing with hc | hc
        · rw [hc] at hlast
          exact .inl (List.singleton_suffix_iff_getLast?_eq_some.2 hlast.symm)
        · rw [hc] at hlast
          exact .inr (List.singleton_suffix_iff_getLast?_eq_some.2 hlast.symm)

/-- A statement with a comment behind. -/
def commentedLine : String := "a = b; # c"

/-- The semicolon goes to the comment, and to a line that is nothing but a comment as well. -/
theorem compile_completeLine_commentedLine :
    (completeLine commentedLine = "a = b; # c;" ∧ completeLine "# c" = "# c;") ∧
    (∃ program, compile commentedLine = .ok program ∧ program.length = 1 ∧
      compile (completeLine commentedLine) = .ok program) ∧
    compile "# c" = .ok [] ∧ compile (completeLine "# c") = .ok [] := by
  have hstatement : ∃ program, compile commentedLine = .ok program ∧ program.length = 1 := by
    have hscan : scan commentedLine = .ok
        [⟨.identifier, "a", none, ⟨0, 1, 1⟩⟩, ⟨.equal, "=", none, ⟨2, 3, 1⟩⟩, ⟨.identifier, "b", none, ⟨4, 5, 1⟩⟩,
          ⟨.semicolon, ";", none, ⟨5, 6, 1⟩⟩, .eof ⟨10, 10, 1⟩] := (scan_eq_scanWithin _).trans rfl
    exact ⟨_, (compile_of_scan hscan).trans rfl, rfl⟩
  have hcomment : compile "# c" = .ok [] := by
    have hscan : scan "# c" = .ok [.eof ⟨3, 3, 1⟩] := (scan_eq_scanWithin _).trans rfl
    exact (compile_of_scan hscan).trans rfl
  obtain ⟨program, hprogram, hlength⟩ := hstatement
  refine ⟨⟨?_, ?_⟩, ⟨program, hprogram, hlength, ?_⟩, hcomment, ?_⟩
  · rw [completeLine_cases, if_neg (by decide)]
    rfl
  · rw [completeLine_cases, if_neg (by decide)]
    rfl
  · exact compile_completeLine (by decide) (by decide) (by decide) hprogram
  · exact compile_completeLine (by decide) (by decide) (by decide) hcomment

end Terminal.Process

end StepScript
